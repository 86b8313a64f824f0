import Jukebox.Proofs.History.Plays
import Jukebox.Proofs.Run.Plan
import Mathlib.Data.List.Perm.Subperm

/-!
The evaluation of files. It succeeds exactly when every history has plays
(`Plan.exists_evaluate_iff`), gives one record for each file (`Plan.forall₂_of_evaluate`), and its
floor is the oldest play of all histories or, without any play, the present (`Plan.le_floor`,
`Plan.floor_cases`).
-/

set_option autoImplicit false
set_option relaxedAutoImplicit false

namespace Jukebox

open Calendar

/-- The second of an import is never a leap second. -/
theorem File.not_isLeap_of_importedAt {f : File} {t : Instant} (h : f.importedAt = some t) :
    ¬ t.isLeap := by
  unfold File.importedAt at h
  split at h
  · cases h
  · rw [Instant.isLeap, decide_eq_true_eq, Nat.not_le]
    exact (Instant.ofTimeline?_eq_some_iff.1 h).2

/-! ### The oldest play -/

/-- The older of two instants, the first of which may be missing. -/
def olderOf : Option Instant → Instant → Option Instant
  | none, t => some t
  | some s, t => if t < s then some t else some s

theorem oldestPlay?_eq_foldl (histories : List (List Instant)) :
    oldestPlay? histories = (histories.filterMap List.head?).foldl olderOf none := by
  unfold oldestPlay?
  congr 1
  funext oldest t
  cases oldest with
  | none => rfl
  | some s => rfl

theorem foldl_olderOf_some (s : Instant) (ts : List Instant) :
    ∃ t, ts.foldl olderOf (some s) = some t ∧ t ∈ s :: ts ∧ ∀ u ∈ s :: ts, t ≤ u := by
  induction ts generalizing s with
  | nil => exact ⟨s, rfl, List.mem_cons_self, fun u hu ↦ by
      rw [List.mem_singleton.1 hu]
      exact Int.le_refl _⟩
  | cons first rest ih =>
    rw [List.foldl_cons, olderOf]
    split
    · rename_i hlt
      obtain ⟨t, ht, hmem, hle⟩ := ih first
      refine ⟨t, ht, List.mem_cons_of_mem _ hmem, fun u hu ↦ ?_⟩
      rcases List.mem_cons.1 hu with rfl | hu
      · exact Int.le_trans (hle first List.mem_cons_self) (Int.le_of_lt hlt)
      · exact hle u hu
    · rename_i hle
      obtain ⟨t, ht, hmem, hmin⟩ := ih s
      refine ⟨t, ht, ?_, fun u hu ↦ ?_⟩
      · rcases List.mem_cons.1 hmem with rfl | hmem
        · exact List.mem_cons_self
        · exact List.mem_cons_of_mem _ (List.mem_cons_of_mem _ hmem)
      · rcases List.mem_cons.1 hu with rfl | hu
        · exact hmin u List.mem_cons_self
        · rcases List.mem_cons.1 hu with rfl | hu
          · exact Int.le_trans (hmin s List.mem_cons_self) (Int.not_lt.1 hle)
          · exact hmin u (List.mem_cons_of_mem _ hu)

theorem oldestPlay?_eq_none_iff {histories : List (List Instant)} :
    oldestPlay? histories = none ↔ ∀ plays ∈ histories, plays = [] := by
  have hheads : histories.filterMap List.head? = [] ↔ ∀ plays ∈ histories, plays = [] := by
    simp only [List.filterMap_eq_nil_iff, List.head?_eq_none_iff]
  rw [oldestPlay?_eq_foldl, ← hheads]
  cases histories.filterMap List.head? with
  | nil => exact iff_of_true rfl rfl
  | cons first rest =>
    obtain ⟨t, ht, _⟩ := foldl_olderOf_some first rest
    refine iff_of_false ?_ (List.cons_ne_nil first rest)
    rw [List.foldl_cons, olderOf, ht]
    exact Option.some_ne_none t

/-- Of histories in order, the oldest play is a play, and no play is older. -/
theorem oldestPlay?_spec {histories : List (List Instant)} {t : Instant}
    (hsorted : ∀ plays ∈ histories, plays.Pairwise (· ≤ ·)) (h : oldestPlay? histories = some t) :
    (∃ plays ∈ histories, t ∈ plays) ∧ ∀ plays ∈ histories, ∀ u ∈ plays, t ≤ u := by
  rw [oldestPlay?_eq_foldl] at h
  obtain ⟨hmem, hle⟩ : t ∈ histories.filterMap List.head? ∧
      ∀ u ∈ histories.filterMap List.head?, t ≤ u := by
    cases hheads : histories.filterMap List.head? with
    | nil =>
      rw [hheads] at h
      cases h
    | cons first rest =>
      obtain ⟨u, hu, hmem, hle⟩ := foldl_olderOf_some first rest
      rw [hheads, List.foldl_cons, olderOf, hu] at h
      obtain rfl := Option.some.inj h
      exact ⟨hmem, hle⟩
  obtain ⟨plays, hplays, hhead⟩ := List.mem_filterMap.1 hmem
  refine ⟨⟨plays, hplays, List.mem_of_head? hhead⟩, fun other hother u hu ↦ ?_⟩
  cases other with
  | nil => cases hu
  | cons first rest =>
    have hfirst := hle first (List.mem_filterMap.2 ⟨first :: rest, hother, rfl⟩)
    rcases List.mem_cons.1 hu with rfl | hu
    · exact hfirst
    · exact Int.le_trans hfirst ((List.pairwise_cons.1 (hsorted _ hother)).1 u hu)

/-- The oldest play is the one play that none is older than. -/
theorem oldestPlay?_eq_some_iff {histories : List (List Instant)} {t : Instant}
    (hsorted : ∀ plays ∈ histories, plays.Pairwise (· ≤ ·)) :
    oldestPlay? histories = some t ↔
      (∃ plays ∈ histories, t ∈ plays) ∧ ∀ plays ∈ histories, ∀ u ∈ plays, t ≤ u := by
  refine ⟨oldestPlay?_spec hsorted, fun ⟨⟨plays, hplays, ht⟩, hle⟩ ↦ ?_⟩
  cases holdest : oldestPlay? histories with
  | none =>
    rw [oldestPlay?_eq_none_iff.1 holdest plays hplays] at ht
    cases ht
  | some u =>
    obtain ⟨⟨plays', hplays', hu⟩, hle'⟩ := oldestPlay?_spec hsorted holdest
    have htu : t ≤ u := hle plays' hplays' u hu
    have hut : u ≤ t := hle' plays hplays t ht
    rw [Instant.rank_inj.1 (Int.le_antisymm htu hut)]

/-! ### Evaluating files -/

/-- The plays of a file's history, none where it has no meaning. -/
def History.Format.observed (format : History.Format) (f : File) : List Instant :=
  (format.plays f.label f.history).toOption.getD []

namespace Plan

variable {p : Plan} {format : History.Format} {files : List File} {records : List Record}
  {c : Context}

theorem plays_eq_observed {f : File} {plays : List Instant}
    (h : format.plays f.label f.history = .ok plays) : plays = format.observed f := by
  rw [History.Format.observed, h]
  rfl

theorem pairwise_observed (format : History.Format) (f : File) :
    (format.observed f).Pairwise (· ≤ ·) := by
  unfold History.Format.observed
  cases h : format.plays f.label f.history with
  | error e => exact List.Pairwise.nil
  | ok plays => exact History.Format.pairwise_of_plays_eq_ok h

theorem pairwise_histories (files : List File) :
    ∀ plays ∈ files.map format.observed, plays.Pairwise (· ≤ ·) :=
  List.forall_mem_map.2 fun f _ ↦ pairwise_observed format f

theorem mapM_plays_eq_ok_iff {histories : List (List Instant)} :
    files.mapM (fun f ↦ format.plays f.label f.history) = .ok histories ↔
      (∀ f ∈ files, ∃ plays, format.plays f.label f.history = .ok plays) ∧
        histories = files.map format.observed :=
  Traversal.mapM_eq_ok_iff_map fun _ _ h ↦ plays_eq_observed h

/-- An evaluation takes the plays of all histories, finds the floor and counts each file. -/
theorem evaluate_eq_ok_iff (hformat : p.format = .ok format) :
    p.evaluate files = .ok (records, c) ↔
      (∀ f ∈ files, ∃ plays, format.plays f.label f.history = .ok plays) ∧
        c = Context.of p.reference (oldestPlay? (files.map format.observed)) ∧
        records = files.map fun f ↦ p.record c f (format.observed f) := by
  have hrecords : ∀ c, ((files.zip (files.map format.observed)).map fun x ↦
      p.record c x.1 x.2) = files.map fun f ↦ p.record c f (format.observed f) := by
    intro c
    induction files with
    | nil => rfl
    | cons f rest ih => rw [List.map_cons, List.zip_cons_cons, List.map_cons, List.map_cons, ih]
  unfold evaluate
  rw [hformat]
  constructor
  · intro h
    obtain ⟨_, hok, h⟩ := Traversal.bind_eq_ok_iff.1 h
    obtain rfl := Except.ok.inj hok
    obtain ⟨histories, hhistories, h⟩ := Traversal.bind_eq_ok_iff.1 h
    obtain ⟨hall, rfl⟩ := mapM_plays_eq_ok_iff.1 (Traversal.mapError_eq_ok_iff.1 hhistories)
    obtain ⟨hleft, hright⟩ := Prod.mk.inj (Except.ok.inj h)
    have hcounted := hrecords (Context.of p.reference (oldestPlay? (files.map format.observed)))
    exact ⟨hall, hright.symm, by rw [← hleft, ← hright]; exact hcounted⟩
  · rintro ⟨hall, rfl, rfl⟩
    refine Traversal.bind_eq_ok_iff.2 ⟨format, rfl, Traversal.bind_eq_ok_iff.2
      ⟨_, Traversal.mapError_eq_ok_iff.2 (mapM_plays_eq_ok_iff.2 ⟨hall, rfl⟩), ?_⟩⟩
    exact congrArg (fun records ↦ Except.ok (records, _)) (hrecords _)

theorem exists_format_of_evaluate (h : p.evaluate files = .ok (records, c)) :
    ∃ format, p.format = .ok format := by
  obtain ⟨format, hformat, _⟩ := Traversal.bind_eq_ok_iff.1 h
  exact ⟨format, Traversal.mapError_eq_ok_iff.1 hformat⟩

theorem exists_evaluate_iff (hformat : p.format = .ok format) :
    (∃ records c, p.evaluate files = .ok (records, c)) ↔
      ∀ f ∈ files, ∃ plays, format.plays f.label f.history = .ok plays := by
  constructor
  · rintro ⟨records, c, h⟩
    exact ((evaluate_eq_ok_iff hformat).1 h).1
  · intro hall
    exact ⟨_, _, (evaluate_eq_ok_iff hformat).2 ⟨hall, rfl, rfl⟩⟩

/-- An evaluation that fails does so for the history of one of the files. -/
theorem exists_of_evaluate_eq_error (hformat : p.format = .ok format) {e : RunError}
    (h : p.evaluate files = .error e) :
    ∃ f ∈ files, ∃ cause, format.plays f.label f.history = .error cause ∧ e = .history cause := by
  unfold evaluate at h
  rw [hformat] at h
  rcases Traversal.bind_eq_error_iff.1 h with h | ⟨_, hok, h⟩
  · cases h
  obtain rfl := Except.ok.inj hok
  rcases Traversal.bind_eq_error_iff.1 h with h | ⟨_, _, h⟩
  · obtain ⟨cause, hcause, rfl⟩ := Traversal.mapError_eq_error_iff.1 h
    obtain ⟨f, hf, hplays⟩ := Traversal.exists_mem_eq_error hcause
    exact ⟨f, hf, cause, hplays, rfl⟩
  · cases h

/-! ### Records -/

/-- The plays that are inferred for a file with the given plays. -/
def inferredPlays (p : Plan) (c : Context) (f : File) (plays : List Instant) : List Instant :=
  if p.settings.inferPrehistory then
    History.spread f.importedAt (f.declaredPlays - plays.length) c.floor
  else []

/-- A record is complete if plays are inferred and there are some to infer, and counted then. -/
theorem exists_record_eq (p : Plan) (c : Context) (f : File) (plays : List Instant) :
    ∃ r statistics, p.record c f plays = { r with statistics } ∧
      r = if p.settings.inferPrehistory && decide (0 < f.declaredPlays - plays.length) then
        (Record.ofFile f plays).completed c.floor else Record.ofFile f plays :=
  ⟨_, _, rfl, rfl⟩

theorem record_file (p : Plan) (c : Context) (f : File) (plays : List Instant) :
    (p.record c f plays).file = f := by
  obtain ⟨r, statistics, hrecord, rfl⟩ := exists_record_eq p c f plays
  rw [hrecord]
  dsimp only
  split <;> rfl

theorem record_observed (p : Plan) (c : Context) (f : File) (plays : List Instant) :
    (p.record c f plays).observed = plays.length := by
  obtain ⟨r, statistics, hrecord, rfl⟩ := exists_record_eq p c f plays
  rw [hrecord]
  dsimp only
  split <;> rfl

theorem record_prehistory (p : Plan) (c : Context) (f : File) (plays : List Instant) :
    (p.record c f plays).prehistory = f.declaredPlays - plays.length := by
  rw [Record.prehistory, record_file, record_observed]

theorem pairwise_events_record (p : Plan) (c : Context) (f : File) (plays : List Instant) :
    (p.record c f plays).events.Pairwise (· ≤ ·) := by
  obtain ⟨r, statistics, hrecord, rfl⟩ := exists_record_eq p c f plays
  rw [hrecord]
  dsimp only
  split
  · exact Record.pairwise_events_addInferred _ _
  · exact Record.pairwise_events_ofFile f plays

/-- The plays of a record are those of the history and the inferred ones, none lost or doubled. -/
theorem perm_events_record (p : Plan) (c : Context) (f : File) (plays : List Instant) :
    (p.record c f plays).events.Perm (plays ++ p.inferredPlays c f plays) := by
  obtain ⟨r, statistics, hrecord, rfl⟩ := exists_record_eq p c f plays
  have hobserved := Instant.ascending_perm plays
  rw [hrecord, inferredPlays]
  dsimp only
  split
  · rename_i hinfer
    rw [Bool.and_eq_true] at hinfer
    rw [if_pos hinfer.1]
    exact (Instant.ascending_perm _).trans (hobserved.append_right _)
  · rename_i hnone
    have hempty : (if p.settings.inferPrehistory then
        History.spread f.importedAt (f.declaredPlays - plays.length) c.floor else []) = [] := by
      split
      · rename_i hinfer
        rw [hinfer, Bool.true_and, decide_eq_true_eq] at hnone
        rw [Nat.eq_zero_of_not_pos hnone]
        rfl
      · rfl
    rw [hempty, List.append_nil]
    exact hobserved

/-- Taking the plays of the history away leaves the inferred ones. -/
theorem mem_diff_events_record_iff {f : File} {plays : List Instant} {t : Instant} :
    t ∈ (p.record c f plays).events.diff plays ↔ t ∈ p.inferredPlays c f plays := by
  have hcancel : ∀ rest : List Instant, (plays ++ rest).diff plays = rest := by
    intro rest
    induction plays with
    | nil => rfl
    | cons u plays ih => rw [List.diff_cons, List.cons_append, List.erase_cons_head, ih]
  have hperm := (perm_events_record p c f plays).diff_right plays
  rw [hcancel] at hperm
  exact hperm.mem_iff

theorem map_file_of_evaluate (hformat : p.format = .ok format)
    (h : p.evaluate files = .ok (records, c)) : records.map Record.file = files := by
  obtain ⟨_, _, rfl⟩ := (evaluate_eq_ok_iff hformat).1 h
  rw [List.map_map]
  exact List.map_id'' (fun f ↦ record_file p c f (format.observed f)) files

/-! ### The floor -/

/-- No play of any history comes before the floor. -/
theorem floor_le (hformat : p.format = .ok format) (h : p.evaluate files = .ok (records, c))
    {f : File} (hf : f ∈ files) {t : Instant} (ht : t ∈ format.observed f) : c.floor ≤ t := by
  obtain ⟨_, rfl, _⟩ := (evaluate_eq_ok_iff hformat).1 h
  cases holdest : oldestPlay? (files.map format.observed) with
  | none =>
    rw [oldestPlay?_eq_none_iff, List.forall_mem_map] at holdest
    rw [holdest f hf] at ht
    cases ht
  | some u =>
    exact (oldestPlay?_spec (pairwise_histories files) holdest).2 _ (List.mem_map_of_mem hf) t ht

/-- The floor is a play of some history or, when there is none, the present. -/
theorem floor_cases (hformat : p.format = .ok format) (h : p.evaluate files = .ok (records, c)) :
    (∃ f ∈ files, c.floor ∈ format.observed f) ∨
      (∀ f ∈ files, format.observed f = []) ∧ c.floor = p.reference.now := by
  obtain ⟨_, rfl, _⟩ := (evaluate_eq_ok_iff hformat).1 h
  cases holdest : oldestPlay? (files.map format.observed) with
  | none =>
    rw [oldestPlay?_eq_none_iff, List.forall_mem_map] at holdest
    exact Or.inr ⟨holdest, rfl⟩
  | some t =>
    obtain ⟨_, hplays, ht⟩ := (oldestPlay?_spec (pairwise_histories files) holdest).1
    obtain ⟨f, hf, rfl⟩ := List.mem_map.1 hplays
    exact Or.inl ⟨f, hf, ht⟩

/-- To come before the floor is to come before every play or, when there is none, before the
present. -/
theorem lt_floor_iff (hformat : p.format = .ok format) (h : p.evaluate files = .ok (records, c))
    {t : Instant} :
    t < c.floor ↔ (∀ f ∈ files, ∀ u ∈ format.observed f, t < u) ∧
      ((∀ f ∈ files, format.observed f = []) → t < p.reference.now) := by
  constructor
  · intro hlt
    refine ⟨fun f hf u hu ↦ Int.lt_of_lt_of_le hlt (floor_le hformat h hf hu), fun hnone ↦ ?_⟩
    rcases floor_cases hformat h with ⟨f, hf, hfloor⟩ | ⟨_, hnow⟩
    · rw [hnone f hf] at hfloor
      cases hfloor
    · rw [← hnow]
      exact hlt
  · rintro ⟨hplays, hpresent⟩
    rcases floor_cases hformat h with ⟨f, hf, hfloor⟩ | ⟨hnone, hnow⟩
    · exact hplays f hf c.floor hfloor
    · rw [hnow]
      exact hpresent hnone

end Plan

end Jukebox
