import Jukebox.Playlist.Ranking
import Jukebox.Proofs.Statistics.Group
import Jukebox.Proofs.Token.Lookup

/-!
# The order of a playlist

The files of a playlist are sorted twice, first by their oldest play and then by what the token
looks at. Both sorts leave files that they do not tell apart as they came
(`pairwise_mergeSort_of_pairwise`), so together they put files in one strict order:
`Playlist.Precedes`, by the token, then by the oldest play, then by the place in the input.
`Playlist.exists_ranking` says that the eligible files come in this order, and
`Definition.build_lists_best_eligible` that a playlist lists the first of them.
-/

set_option autoImplicit false
set_option relaxedAutoImplicit false

namespace Jukebox

open Calendar

/-! ### Sorting what is sorted already -/

/-- A stable sort of a list in some order leaves members that it does not tell apart in this
order. -/
theorem pairwise_mergeSort_of_pairwise {α : Type} (le : α → α → Bool) {R : α → α → Prop}
    {l : List α} (trans : ∀ a b c, le a b = true → le b c = true → le a c = true)
    (total : ∀ a b, (le a b || le b a) = true) (h : l.Pairwise R) :
    (l.mergeSort le).Pairwise fun a b ↦ le a b = true ∧ (le b a = true → R a b) := by
  -- Places tell the members apart, and a stable sort is a sort by the places as well.
  rw [← List.mergeSort_zipIdx, List.pairwise_map]
  have hsorted := List.pairwise_mergeSort (List.zipIdxLE_trans trans) (List.zipIdxLE_total total)
    l.zipIdx
  have hplaces : (l.zipIdx.mergeSort (List.zipIdxLE le)).Pairwise fun p q ↦ p.2 ≠ q.2 := by
    rw [← List.pairwise_map (f := Prod.snd)]
    refine ((List.mergeSort_perm _ _).map _).nodup_iff.2 ?_
    rw [List.zipIdx_map_snd]
    exact List.nodup_range'
  refine (hsorted.and hplaces).imp_of_mem ?_
  rintro ⟨a, i⟩ ⟨b, j⟩ ha hb ⟨hle, hne⟩
  rw [List.mem_mergeSort, List.mk_mem_zipIdx_iff_getElem?, List.getElem?_eq_some_iff] at ha hb
  obtain ⟨hi, rfl⟩ := ha
  obtain ⟨hj, rfl⟩ := hb
  simp only [List.zipIdxLE] at hle
  split at hle
  · rename_i hforth
    refine ⟨hforth, fun hback ↦ ?_⟩
    rw [if_pos hback, decide_eq_true_eq] at hle
    exact List.pairwise_iff_getElem.1 h i j hi hj (Nat.lt_of_le_of_ne hle hne)
  · cases hle

/-! ### Oldest plays -/

namespace Record

variable {a b c : Record}

/-- The first record has a play, and its oldest play comes after that of the second one, which may
have none. -/
def Newer (a b : Record) : Prop := ∃ s, a.earliest? = some s ∧ ∀ t, b.earliest? = some t → t < s

theorem notOlder_iff : a.notOlder b = true ↔ ¬ b.Newer a := by
  unfold notOlder Newer
  cases a.earliest? <;> cases b.earliest? <;> simp [Instant.le_iff, Instant.lt_iff]

theorem notOlder_trans (hab : a.notOlder b = true) (hbc : b.notOlder c = true) :
    a.notOlder c = true := by
  cases hc : c.earliest? with
  | none =>
    rw [notOlder, hc]
  | some t =>
    cases hb : b.earliest? with
    | none =>
      rw [notOlder, hb, hc] at hbc
      cases hbc
    | some u =>
      cases ha : a.earliest? with
      | none =>
        rw [notOlder, ha, hb] at hab
        cases hab
      | some s =>
        simp only [notOlder, ha, hb, hc, decide_eq_true_eq, Instant.le_iff] at hab hbc ⊢
        omega

theorem notOlder_total (a b : Record) : (a.notOlder b || b.notOlder a) = true := by
  unfold notOlder
  cases a.earliest? <;> cases b.earliest? <;>
    simp only [Bool.or_eq_true, decide_eq_true_eq, Instant.le_iff, Bool.true_or, Bool.or_true]
  omega

theorem Newer.asymm (h : a.Newer b) : ¬ b.Newer a := by
  have htotal := notOlder_total a b
  rw [Bool.or_eq_true, notOlder_iff, notOlder_iff] at htotal
  exact htotal.resolve_right fun hback ↦ hback h

end Record

/-! ### What a token looks at -/

namespace Playlist

variable {token : NamedToken} {a b c : Record} {records : List Record}

/-- Whether a file may be listed by the token. -/
def eligible (token : NamedToken) (r : Record) : Bool :=
  match token.token with
  | .unplayed => r.events.isEmpty
  | .recent | .unpopular => !r.events.isEmpty
  | .prehistory => 0 < r.prehistory
  | _ => 0 < r.statistics.number token.text

/-- The token puts the first file before the second. -/
def Leads (token : NamedToken) (a b : Record) : Prop :=
  match token.token with
  | .unplayed => b.file.imported < a.file.imported
  | .recent => a.Newer b
  | .unpopular => b.Newer a
  | .prehistory => b.prehistory < a.prehistory
  | _ => b.statistics.number token.text < a.statistics.number token.text

/-- The order of a playlist, for files with their places in the input: by the token, then by the
oldest play with the most recent one first and files without plays last, then by the place. -/
def Precedes (token : NamedToken) (p q : Record × Nat) : Prop :=
  Leads token p.1 q.1 ∨ ¬ Leads token q.1 p.1 ∧
    (p.1.Newer q.1 ∨ ¬ q.1.Newer p.1 ∧ p.2 < q.2)

/-- The eligible files with their places in the input, each once, in the order of the playlist. -/
structure Ranking (token : NamedToken) (records : List Record) (members : List (Record × Nat)) :
    Prop where
  perm : members.Perm (records.zipIdx.filter fun p ↦ eligible token p.1)
  pairwise : members.Pairwise (Precedes token)

theorem Ranking.perm_records {members : List (Record × Nat)} (h : Ranking token records members) :
    (members.map Prod.fst).Perm (records.filter (eligible token)) := by
  have hplaces : (records.zipIdx.filter fun p ↦ eligible token p.1).map Prod.fst =
      records.filter (eligible token) := by
    conv_rhs => rw [← List.zipIdx_map_fst 0 records, List.filter_map]
    rfl
  exact hplaces ▸ h.perm.map Prod.fst

/-- How the token compares two files: the second one does not come first. -/
def notBehind (token : NamedToken) (a b : Record) : Bool :=
  match token.token with
  | .unplayed => b.file.imported ≤ a.file.imported
  | .recent => a.notOlder b
  | .unpopular => b.notOlder a
  | .prehistory => b.prehistory ≤ a.prehistory
  | _ => b.statistics.number token.text ≤ a.statistics.number token.text

theorem notBehind_iff : notBehind token a b = true ↔ ¬ Leads token b a := by
  unfold notBehind Leads
  split <;> simp only [decide_eq_true_eq, Int.not_lt, Nat.not_lt, Record.notOlder_iff]

theorem notBehind_trans (hab : notBehind token a b = true) (hbc : notBehind token b c = true) :
    notBehind token a c = true := by
  obtain ⟨text, token⟩ := token
  cases token
  case recent => exact Record.notOlder_trans hab hbc
  case unpopular => exact Record.notOlder_trans hbc hab
  all_goals
    simp only [notBehind, decide_eq_true_eq] at hab hbc ⊢
    omega

theorem notBehind_total (token : NamedToken) (a b : Record) :
    (notBehind token a b || notBehind token b a) = true := by
  obtain ⟨text, token⟩ := token
  cases token
  case recent => exact Record.notOlder_total a b
  case unpopular => exact Record.notOlder_total b a
  all_goals
    simp only [notBehind, Bool.or_eq_true, decide_eq_true_eq]
    omega

theorem Leads.asymm (h : Leads token a b) : ¬ Leads token b a := by
  have htotal := notBehind_total token a b
  rw [Bool.or_eq_true, notBehind_iff, notBehind_iff] at htotal
  exact htotal.resolve_right fun hback ↦ hback h

theorem Precedes.not_leads {p q : Record × Nat} (h : Precedes token p q) :
    ¬ Leads token q.1 p.1 :=
  h.elim Leads.asymm And.left

theorem Precedes.asymm {p q : Record × Nat} (h : Precedes token p q) : ¬ Precedes token q p := by
  rintro (hlead | ⟨hnot, hrest⟩)
  · rcases h with hlead' | ⟨hnot', _⟩
    · exact hlead.asymm hlead'
    · exact hnot' hlead
  · rcases h with hlead' | ⟨_, hnewer | ⟨hold, hplace⟩⟩
    · exact hnot hlead'
    · rcases hrest with hnewer' | ⟨hold', _⟩
      · exact hnewer.asymm hnewer'
      · exact hold' hnewer
    · rcases hrest with hnewer' | ⟨_, hplace'⟩
      · exact hold hnewer'
      · exact Nat.lt_asymm hplace hplace'

/-! ### Ranking -/

/-- Files ranked by a number are those with a positive one, the greatest first. -/
theorem rankedByNumber_eq_ok {text : String} (h : ∀ r ∈ records, r.statistics.Has text) :
    (do
      let numbered ← records.mapM fun r ↦ do
        let v ← r.statistics.require text
        .ok (v.number, r)
      let eligible := numbered.filter fun p ↦ decide (0 < p.1)
      .ok ((eligible.mergeSort fun p q ↦ decide (q.1 ≤ p.1)).map Prod.snd) :
        Except StatisticError (List Record)) =
      .ok ((records.filter fun r ↦ decide (0 < r.statistics.number text)).mergeSort fun a b ↦
        decide (b.statistics.number text ≤ a.statistics.number text)) := by
  let number : Record → Int × Record := fun r ↦ (r.statistics.number text, r)
  have hnumbered : (records.mapM fun r ↦ do
      let v ← r.statistics.require text
      .ok (v.number, r)) = Except.ok (records.map number) := by
    rw [Traversal.mapM_eq_ok_iff, List.forall₂_map_right_iff, List.forall₂_same]
    intro r hr
    obtain ⟨v, hv⟩ := h r hr
    simp only [Statistics.require, hv, bind, Except.bind, number, Statistics.number,
      Option.map_some, Option.getD_some]
  rw [hnumbered]
  change Except.ok _ = _
  congr 1
  rw [List.filter_map, ← List.map_mergeSort (f := number) fun a _ b _ ↦ rfl, List.map_map]
  exact List.map_id _

/-- Whatever the token, the eligible files are sorted by the way the token compares them. -/
theorem ranked_eq_ok (h : ∀ r ∈ records, r.statistics.Has token.text) :
    ranked token records =
      .ok ((records.filter (eligible token)).mergeSort (notBehind token)) := by
  obtain ⟨text, token⟩ := token
  cases token
  case recent => rfl
  case unpopular => rfl
  case unplayed =>
    have hplays : (fun r : Record ↦ !r.hasPlays) = fun r ↦ r.events.isEmpty :=
      funext fun r ↦ Bool.not_not _
    unfold ranked
    rw [hplays]
    rfl
  case prehistory => rfl
  all_goals exact rankedByNumber_eq_ok h

/-- From files sorted by their oldest play, the eligible files come in the order of the playlist. -/
theorem exists_ranking (h : ∀ r ∈ records, r.statistics.Has token.text) :
    ∃ members, Ranking token records members ∧
      ranked token (Record.sortByOldest records) = .ok (members.map Prod.fst) := by
  let placed := records.zipIdx.mergeSort fun p q ↦ p.1.notOlder q.1
  have hplaced : placed.map Prod.fst = Record.sortByOldest records := by
    have hmap := List.map_mergeSort (f := Prod.fst) (s := Record.notOlder) (l := records.zipIdx)
      fun p _ q _ ↦ rfl
    rw [List.zipIdx_map_fst] at hmap
    exact hmap
  have hsorted : placed.Pairwise fun p q ↦
      p.1.notOlder q.1 = true ∧ (q.1.notOlder p.1 = true → p.2 < q.2) := by
    refine pairwise_mergeSort_of_pairwise _ (fun p q r ↦ Record.notOlder_trans)
      (fun p q ↦ Record.notOlder_total p.1 q.1) ?_
    rw [← List.pairwise_map (f := Prod.snd), List.zipIdx_map_snd]
    exact List.pairwise_lt_range'
  let members := (placed.filter fun p ↦ eligible token p.1).mergeSort fun p q ↦
    notBehind token p.1 q.1
  refine ⟨members, ⟨(List.mergeSort_perm _ _).trans ((List.mergeSort_perm _ _).filter _), ?_⟩, ?_⟩
  · have hmembers := pairwise_mergeSort_of_pairwise (fun p q ↦ notBehind token p.1 q.1)
      (fun p q r ↦ notBehind_trans) (fun p q ↦ notBehind_total token p.1 q.1)
      (hsorted.filter fun p ↦ eligible token p.1)
    refine hmembers.imp ?_
    rintro p q ⟨hforth, htie⟩
    rw [notBehind_iff] at hforth htie
    by_cases hlead : Leads token p.1 q.1
    · exact Or.inl hlead
    · obtain ⟨hold, hplace⟩ := htie hlead
      rw [Record.notOlder_iff] at hold hplace
      refine Or.inr ⟨hforth, ?_⟩
      by_cases hnewer : p.1.Newer q.1
      · exact Or.inl hnewer
      · exact Or.inr ⟨hold, hplace hnewer⟩
  · have hmembers : members.map Prod.fst =
        ((placed.map Prod.fst).filter (eligible token)).mergeSort (notBehind token) := by
      rw [List.filter_map]
      exact List.map_mergeSort fun p _ q _ ↦ rfl
    rw [hmembers, hplaced]
    exact ranked_eq_ok fun r hr ↦ h r ((List.mergeSort_perm _ _).mem_iff.1 hr)

end Playlist

/-! ### Playlists -/

namespace Definition

variable {d : Definition} {tokens : TokenSet} {token : NamedToken} {records : List Record}
  {c : Context}

/-- The first `max` of some members, or all of them where `max` is 0. -/
def listed {α : Type} (d : Definition) (members : List α) : List α :=
  if d.max = 0 then members else members.take d.max

theorem exists_listed_append {α : Type} (d : Definition) (members : List α) :
    ∃ rest, members = d.listed members ++ rest := by
  unfold listed
  split
  · exact ⟨[], (List.append_nil _).symm⟩
  · exact ⟨members.drop d.max, (List.take_append_drop _ _).symm⟩

theorem length_listed {α : Type} (d : Definition) (members : List α) :
    (d.listed members).length =
      if d.max = 0 then members.length else min d.max members.length := by
  unfold listed
  split
  · rfl
  · exact List.length_take

theorem listed_map {α β : Type} (d : Definition) (f : α → β) (members : List α) :
    d.listed (members.map f) = (d.listed members).map f := by
  unfold listed
  split
  · rfl
  · exact List.map_take.symm

theorem rankingToken_eq_ok_iff : d.rankingToken tokens = .ok token ↔
    tokens.get? d.token = some token ∧ token.token.isSeries = false := by
  unfold rankingToken
  cases tokens.get? d.token with
  | none => exact iff_of_false (fun h ↦ by cases h) fun h ↦ by cases h.1
  | some t =>
    dsimp only
    cases hseries : t.token.isSeries with
    | true =>
      refine iff_of_false (fun h ↦ by cases h) ?_
      rintro ⟨heq, hnot⟩
      rw [← Option.some.inj heq, hseries] at hnot
      cases hnot
    | false =>
      constructor
      · intro h
        obtain rfl := Except.ok.inj h
        exact ⟨rfl, hseries⟩
      · rintro ⟨heq, _⟩
        exact congrArg Except.ok (Option.some.inj heq)

theorem mem_of_rankingToken (h : d.rankingToken tokens = .ok token) : token ∈ tokens.tokens :=
  TokenSet.mem_of_get?_eq_some (rankingToken_eq_ok_iff.1 h).1

/-- A playlist lists the keys of its members. -/
theorem build_eq_ok {sorted members : List Record} (htoken : d.rankingToken tokens = .ok token)
    (hmembers : Playlist.ranked token sorted = .ok members) :
    d.build tokens sorted = .ok ⟨d, (d.listed members).map fun r ↦ r.file.key⟩ :=
  Traversal.bind_eq_ok_iff.2 ⟨token, htoken, Traversal.bind_eq_ok_iff.2 ⟨members, hmembers, rfl⟩⟩

theorem definition_of_build_eq_ok {sorted : List Record} {list : Playlist}
    (h : d.build tokens sorted = .ok list) : list.definition = d := by
  obtain ⟨_, _, h⟩ := Traversal.bind_eq_ok_iff.1 h
  obtain ⟨_, _, h⟩ := Traversal.bind_eq_ok_iff.1 h
  obtain rfl := Except.ok.inj h
  rfl

/-- From files sorted by their oldest play, a playlist lists the first files of its order. -/
theorem exists_build_eq_ok_ranking (htoken : d.rankingToken tokens = .ok token)
    (h : ∀ r ∈ records, r.statistics.Has token.text) :
    ∃ members, Playlist.Ranking token records members ∧
      d.build tokens (Record.sortByOldest records) =
        .ok ⟨d, (d.listed members).map fun p ↦ p.1.file.key⟩ := by
  obtain ⟨members, hranking, hranked⟩ := Playlist.exists_ranking h
  refine ⟨members, hranking, ?_⟩
  rw [build_eq_ok htoken hranked, listed_map, List.map_map]
  rfl

/-- From files counted by a set of tokens and sorted by their oldest play, a playlist lists the
first `max` of the eligible files, or all of them, in the order of the playlist; so no file that is
left out comes before a listed one. Files are told apart by their places, and each has the value of
the token for its statistic. -/
theorem build_lists_best_eligible (hcounted : ∀ r ∈ records, r.statistics = tokens.evaluate r c)
    (htoken : tokens.get? d.token = some token) (hseries : token.token.isSeries = false) :
    ∃ members, Playlist.Ranking token records members ∧
      d.build tokens (Record.sortByOldest records) =
        .ok ⟨d, (d.listed members).map fun p ↦ p.1.file.key⟩ ∧
      (d.listed members).length = (if d.max = 0 then records.countP (Playlist.eligible token)
        else min d.max (records.countP (Playlist.eligible token))) ∧
      (∀ p ∈ members, p ∉ d.listed members → ∀ q ∈ d.listed members,
        Playlist.Precedes token q p ∧ ¬ Playlist.Precedes token p q) ∧
      ∀ r ∈ records, r.statistics.get? token.text = some (token.token.evaluate r c) := by
  have hmem : token ∈ tokens.tokens := TokenSet.mem_of_get?_eq_some htoken
  have hvalue : ∀ r ∈ records,
      r.statistics.get? token.text = some (token.token.evaluate r c) := by
    intro r hr
    rw [hcounted r hr]
    exact TokenSet.get?_evaluate r c hmem
  obtain ⟨members, hranking, hbuild⟩ :=
    exists_build_eq_ok_ranking (rankingToken_eq_ok_iff.2 ⟨htoken, hseries⟩)
      fun r hr ↦ ⟨_, hvalue r hr⟩
  have hlength : members.length = records.countP (Playlist.eligible token) := by
    rw [List.countP_eq_length_filter, ← hranking.perm_records.length_eq, List.length_map]
  refine ⟨members, hranking, hbuild, ?_, ?_, hvalue⟩
  · rw [length_listed, hlength]
  · obtain ⟨rest, hrest⟩ := d.exists_listed_append members
    have hpairwise := hranking.pairwise
    rw [hrest, List.pairwise_append] at hpairwise
    intro p hp hout q hq
    rw [hrest, List.mem_append] at hp
    have hprecedes := hpairwise.2.2 q hq p (hp.resolve_left hout)
    exact ⟨hprecedes, hprecedes.asymm⟩

/-- Three of five files have two plays, and two of these have the same oldest play. -/
theorem build_lists_best_eligible_ties :
    let tokens : TokenSet :=
      ⟨[⟨"unpopular", .unpopular⟩, ⟨"total", .range .whole⟩], _, rfl, by decide⟩
    let token : NamedToken := ⟨"total", .range .whole⟩
    let d := Definition.of "Most played" "[ Total ]" 2
    let newYear : (y : Fin 9999) → Instant := fun y ↦ .midnight ((Date.ofYmd? y 1 1).getD .first)
    let c := Context.of ⟨newYear 2024, .monday⟩ (newYear 2020)
    let records := [
      Record.ofFile { key := 1 } [], .ofFile { key := 2 } [newYear 2020, newYear 2023],
      .ofFile { key := 3 } [newYear 2021, newYear 2022], .ofFile { key := 4 } [newYear 2023],
      .ofFile { key := 5 } [newYear 2022, newYear 2021]].map
        fun r ↦ { r with statistics := tokens.evaluate r c }
    (∀ r ∈ records, r.statistics = tokens.evaluate r c) ∧ tokens.get? d.token = some token ∧
      token.token.isSeries = false ∧
      ∃ members, Playlist.Ranking token records members ∧
        d.build tokens (Record.sortByOldest records) =
          .ok ⟨d, (d.listed members).map fun p ↦ p.1.file.key⟩ ∧
        (d.listed members).length = (if d.max = 0 then records.countP (Playlist.eligible token)
          else min d.max (records.countP (Playlist.eligible token))) ∧
        (∀ p ∈ members, p ∉ d.listed members → ∀ q ∈ d.listed members,
          Playlist.Precedes token q p ∧ ¬ Playlist.Precedes token p q) ∧
        ∀ r ∈ records, r.statistics.get? token.text = some (token.token.evaluate r c) := by
  intro tokens token d newYear c records
  have hcounted : ∀ r ∈ records, r.statistics = tokens.evaluate r c := by
    intro r hr
    obtain ⟨bare, _, rfl⟩ := List.mem_map.1 hr
    rfl
  have htoken : tokens.get? d.token = some token := by decide +kernel
  exact ⟨hcounted, htoken, rfl, build_lists_best_eligible hcounted htoken rfl⟩

end Definition

end Jukebox
