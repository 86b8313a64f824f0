import Jukebox.Proofs.Run.Evaluation

/-!
# What files tell about each other

A record depends on the other files of an evaluation through the context alone, and this on them
through the oldest play on record alone (`Plan.oldestPlay?_congr`). The oldest play tells where
inferred plays end and where series of years begin that name no first year. So a file that lacks no
plays has the same record among any others, but for such series (`Plan.record_alike`).
`Plan.record_of_two_evaluations` compares the records of a file in two evaluations.
-/

set_option autoImplicit false
set_option relaxedAutoImplicit false

namespace Jukebox

open Calendar

/-! ### Statistics of one record in two contexts -/

/-- Putting values under one key keeps maps related that are so pair by pair, and key by key. -/
theorem Assoc.forall₂_set {κ α : Type} [DecidableEq κ] {R : κ × α → κ × α → Prop}
    (hkeys : ∀ x x', R x x' → x'.1 = x.1) {m m' : Assoc κ α} (h : List.Forall₂ R m m') {key : κ}
    {a a' : α} (ha : R (key, a) (key, a')) : List.Forall₂ R (set m key a) (set m' key a') := by
  induction h with
  | nil => exact .cons ha .nil
  | @cons x x' rest rest' hx hrest ih =>
    obtain ⟨k, b⟩ := x
    obtain ⟨k', b'⟩ := x'
    obtain rfl : k' = k := hkeys _ _ hx
    by_cases hk : k' = key
    · subst hk
      simp only [set, if_true]
      exact .cons ha hrest
    · simp only [set, if_neg hk]
      exact .cons hx ih

/-- The floor counts for series of years without a first one only. -/
theorem Token.evaluate_congr {c c' : Context} (hreference : c.reference = c'.reference)
    {token : Token} (htoken : token ≠ .perYear none) (r : Record) :
    token.evaluate r c = token.evaluate r c' := by
  obtain ⟨reference, floor⟩ := c
  obtain ⟨reference', floor'⟩ := c'
  obtain rfl : reference = reference' := hreference
  cases token with
  | perYear start =>
    cases start with
    | none => exact absurd rfl htoken
    | some y => rfl
  | _ => rfl

namespace TokenSet

/-- A text of the set is that of a series of years without a first one. -/
def IsOpenSeries (tokens : TokenSet) (text : String) : Prop :=
  ∃ t ∈ tokens.tokens, t.text = text ∧ t.token = .perYear none

/-- The statistics have the same texts, and the same values but for series of years without a first
one. -/
def Alike (tokens : TokenSet) (s s' : Statistics) : Prop :=
  List.Forall₂ (fun x x' ↦ x'.1 = x.1 ∧ (x'.2 = x.2 ∨ tokens.IsOpenSeries x.1)) s s'

theorem alike_evaluate {c c' : Context} (hreference : c.reference = c'.reference)
    (tokens : TokenSet) (r : Record) :
    tokens.Alike (tokens.evaluate r c) (tokens.evaluate r c') := by
  -- By induction on the tokens evaluated so far, all of which belong to the set.
  suffices hfold : ∀ ts : List NamedToken, (∀ t ∈ ts, t ∈ tokens.tokens) →
      ∀ s s' : Statistics, tokens.Alike s s' →
        tokens.Alike (ts.foldl (fun s t ↦ Assoc.set s t.text (t.token.evaluate r c)) s)
          (ts.foldl (fun s t ↦ Assoc.set s t.text (t.token.evaluate r c')) s') from
    hfold tokens.tokens (fun _ ht ↦ ht) [] [] .nil
  intro ts
  induction ts with
  | nil => exact fun _ _ _ h ↦ h
  | cons t rest ih =>
    intro hmem s s' halike
    refine ih (fun u hu ↦ hmem u (List.mem_cons_of_mem _ hu)) _ _
      (Assoc.forall₂_set (fun _ _ h ↦ h.1) halike ⟨rfl, ?_⟩)
    by_cases htoken : t.token = .perYear none
    · exact .inr ⟨t, hmem t List.mem_cons_self, rfl, htoken⟩
    · exact .inl (Token.evaluate_congr hreference htoken r).symm

end TokenSet

/-! ### The oldest play on record -/

/-- The oldest play on record in the histories of some files. -/
def History.Format.IsOldest (format : History.Format) (files : List File) (t : Instant) : Prop :=
  (∃ f ∈ files, t ∈ format.observed f) ∧ ∀ f ∈ files, ∀ u ∈ format.observed f, t ≤ u

namespace Plan

variable {p : Plan} {format : History.Format} {files files' : List File} {f : File}
  {records records' : List Record} {c c' : Context}

theorem oldestPlay?_eq_some_iff_isOldest {t : Instant} :
    oldestPlay? (files.map format.observed) = some t ↔ format.IsOldest files t := by
  simp only [oldestPlay?_eq_some_iff (pairwise_histories files), List.mem_map,
    exists_exists_and_eq_and, forall_exists_index, and_imp, forall_apply_eq_imp_iff₂,
    History.Format.IsOldest]

/-- Files with the same oldest play, or none at all, have the same context. -/
theorem oldestPlay?_congr (h : ∀ t, format.IsOldest files t ↔ format.IsOldest files' t) :
    oldestPlay? (files.map format.observed) = oldestPlay? (files'.map format.observed) := by
  ext t
  rw [oldestPlay?_eq_some_iff_isOldest, oldestPlay?_eq_some_iff_isOldest, h]

/-! ### The record of one file -/

/-- No plays are inferred where none are lacking, or none are asked for. -/
theorem record_of_nothing_inferred {plays : List Instant}
    (h : p.settings.inferPrehistory = false ∨ f.declaredPlays ≤ plays.length) (c : Context) :
    p.record c f plays = { Record.ofFile f plays with
      statistics := p.tokens.evaluate (Record.ofFile f plays) c } := by
  have hnone : ¬ (p.settings.inferPrehistory &&
      decide (0 < (Record.ofFile f plays).prehistory)) = true := by
    rw [Bool.and_eq_true, decide_eq_true_eq]
    rintro ⟨hinfer, hlacking⟩
    rcases h with hoff | hfull
    · rw [hoff] at hinfer
      cases hinfer
    · have hprehistory : (Record.ofFile f plays).prehistory = f.declaredPlays - plays.length := rfl
      omega
  rw [record]
  dsimp only
  rw [if_neg hnone]

/-- Where no plays are inferred, the floor shows in series of years without a first one only. -/
theorem record_alike {plays : List Instant}
    (h : p.settings.inferPrehistory = false ∨ f.declaredPlays ≤ plays.length)
    (hreference : c.reference = c'.reference) :
    p.record c' f plays =
        { p.record c f plays with statistics := (p.record c' f plays).statistics } ∧
      p.tokens.Alike (p.record c f plays).statistics (p.record c' f plays).statistics := by
  rw [record_of_nothing_inferred h c, record_of_nothing_inferred h c']
  exact ⟨rfl, TokenSet.alike_evaluate hreference p.tokens _⟩

/-! ### Two evaluations -/

/-- A file that is found in two evaluations of one plan has the same record in both if the oldest
play on record is the same, or there is none in either. If its history lacks no plays, or plays are
not inferred, the record is the same whatever the other files are, but for the values of series of
years without a first one. -/
theorem record_of_two_evaluations (h : p.evaluate files = .ok (records, c))
    (h' : p.evaluate files' = .ok (records', c')) :
    ∃ format, p.format = .ok format ∧
      ∀ (i j : Nat) (f : File), files[i]? = some f → files'[j]? = some f →
        ∃ r r' : Record, records[i]? = some r ∧ records'[j]? = some r' ∧ r.file = f ∧
          ((∀ t, format.IsOldest files t ↔ format.IsOldest files' t) → r' = r) ∧
          (p.settings.inferPrehistory = false ∨
              f.declaredPlays ≤ (format.entries f.history).length →
            r' = { r with statistics := r'.statistics } ∧
              p.tokens.Alike r.statistics r'.statistics) := by
  obtain ⟨format, hformat⟩ := exists_format_of_evaluate h
  obtain ⟨hplays, hc, rfl⟩ := (evaluate_eq_ok_iff hformat).1 h
  obtain ⟨_, hc', rfl⟩ := (evaluate_eq_ok_iff hformat).1 h'
  refine ⟨format, hformat, fun i j f hi hj ↦ ?_⟩
  refine ⟨p.record c f (format.observed f), p.record c' f (format.observed f), ?_, ?_,
    record_file p c f _, fun holdest ↦ ?_, fun hnone ↦ ?_⟩
  · rw [List.getElem?_map, hi, Option.map_some]
  · rw [List.getElem?_map, hj, Option.map_some]
  · rw [hc, hc', oldestPlay?_congr holdest]
  · obtain ⟨plays, hok⟩ := hplays f (List.mem_of_getElem? hi)
    obtain rfl := plays_eq_observed hok
    rw [← History.Format.length_of_plays_eq_ok hok] at hnone
    exact record_alike hnone (by rw [hc, hc']; rfl)

/-- A file that lacks two plays has the same record beside another file in either order, and the
other file, which lacks none, has the record that it has alone, but for its open series. -/
theorem record_of_two_evaluations_beside_older :
    let s : Settings := { stats := [{ enabled := true, template := "[total];[peryear]" }] }
    let f : File := { key := 1, history := "2023-05-01" }
    let g : File := { key := 2, history := "2019-02-03", declaredPlays := 3 }
    ∃ p records c records' c' records'' c'',
      Plan.of s (.midnight ⟨yearStart 2024, by decide⟩) = .ok p ∧
      p.evaluate [f] = .ok (records, c) ∧ p.evaluate [g, f] = .ok (records', c') ∧
      p.evaluate [f, g, g] = .ok (records'', c'') ∧
      (∃ r, records'[0]? = some r ∧ records''[1]? = some r) ∧
      ∃ r r' : Record, records[0]? = some r ∧ records'[1]? = some r' ∧ r'.events = r.events ∧
        p.tokens.Alike r.statistics r'.statistics := by
  intro s f g
  have hok : (Plan.of s (.midnight ⟨yearStart 2024, by decide⟩) >>= fun p ↦
      p.evaluate [f, g, g]).isOk = true := by
    decide +kernel
  obtain ⟨⟨records'', c''⟩, hboth⟩ := Traversal.exists_eq_ok_of_isOk hok
  obtain ⟨p, hplan, h''⟩ := Traversal.bind_eq_ok_iff.1 hboth
  obtain ⟨format, hformat⟩ := exists_format_of_evaluate h''
  have hplays := (exists_evaluate_iff hformat).1 ⟨records'', c'', h''⟩
  have halone : ∀ e ∈ [f], ∃ plays, format.plays e.label e.history = .ok plays :=
    List.forall_mem_singleton.2 (hplays f List.mem_cons_self)
  have hbeside : ∀ e ∈ [g, f], ∃ plays, format.plays e.label e.history = .ok plays :=
    List.forall_mem_cons.2 ⟨hplays g (List.mem_cons_of_mem f List.mem_cons_self), halone⟩
  obtain ⟨records, c, h⟩ := (exists_evaluate_iff hformat).2 halone
  obtain ⟨records', c', h'⟩ := (exists_evaluate_iff hformat).2 hbeside
  obtain ⟨_, _, halike⟩ := record_of_two_evaluations h h'
  obtain ⟨_, _, hsame⟩ := record_of_two_evaluations h' h''
  obtain ⟨r, r', hr, hr', _, _, hopen⟩ := halike 0 1 f rfl rfl
  obtain ⟨q, q', hq, hq', _, hold, _⟩ := hsame 0 1 g rfl rfl
  obtain ⟨hrecord, hstatistics⟩ := hopen (.inr (Nat.zero_le _))
  obtain rfl := hold fun t ↦ by simp [History.Format.IsOldest, or_comm]
  refine ⟨p, records, c, records', c', records'', c'', hplan, h, h', h'', ⟨q', hq, hq'⟩,
    r, r', hr, hr', ?_, hstatistics⟩
  rw [hrecord]

end Plan

end Jukebox
