import Jukebox.Proofs.Traversal
import Jukebox.Statistics.Group

/-!
Groups that can be filled. A template is filled once every token in it is known and has a
statistic (`exists_fill_eq_ok`). Adding up loses no statistic, so what can be filled for each
record of a run can be filled for records that share a field (`exists_apply_eq_ok`).
-/

set_option autoImplicit false
set_option relaxedAutoImplicit false

namespace Jukebox

/-! ### Sums of statistics -/

namespace Statistics

/-- There is a statistic under a text. -/
def Has (s : Statistics) (text : String) : Prop := ∃ v, s.get? text = some v

theorem has_accumulate {s : Statistics} {text other : String} {v : Statistic}
    (h : s.Has other ∨ text = other) : (s.accumulate text v).Has other := by
  unfold accumulate Has
  rw [Assoc.get?_set]
  by_cases heq : text = other
  · rw [if_pos heq]
    exact ⟨_, rfl⟩
  · rw [if_neg heq]
    exact h.resolve_right heq

theorem has_foldl_accumulate {s total : Statistics} {text : String}
    (h : total.Has text ∨ s.Has text) :
    (s.foldl (fun t (p : String × Statistic) ↦ accumulate t p.1 p.2) total).Has text := by
  induction s generalizing total with
  | nil => exact h.resolve_right fun ⟨v, hv⟩ ↦ by cases hv
  | cons p rest ih =>
    apply ih
    rcases h with h | ⟨v, hv⟩
    · exact Or.inl (has_accumulate (Or.inl h))
    · by_cases heq : p.1 = text
      · exact Or.inl (has_accumulate (Or.inr heq))
      · rw [Assoc.get?, if_neg heq] at hv
        exact Or.inr ⟨v, hv⟩

/-- A sum has what one of its members has. -/
theorem has_sum {all : List Statistics} {s : Statistics} {text : String} (hs : s ∈ all)
    (h : s.Has text) : (sum all).Has text := by
  suffices hfold : ∀ total : Statistics, total.Has text ∨ (∃ s ∈ all, s.Has text) →
      (all.foldl (fun total s ↦ s.foldl (fun t (p : String × Statistic) ↦
        accumulate t p.1 p.2) total) total).Has text from hfold [] (Or.inr ⟨s, hs, h⟩)
  clear hs h
  induction all with
  | nil =>
    intro total h
    exact h.resolve_right fun ⟨s, hs, _⟩ ↦ by cases hs
  | cons first rest ih =>
    intro total h
    apply ih
    rcases h with h | ⟨s, hs, h⟩
    · exact Or.inl (has_foldl_accumulate (Or.inl h))
    · rcases List.mem_cons.1 hs with rfl | hs
      · exact Or.inl (has_foldl_accumulate (Or.inr h))
      · exact Or.inr ⟨s, hs, h⟩

end Statistics

/-! ### Templates -/

namespace Filler

/-- The statistics have what the tokens of a template ask for. -/
def Covers (f : Filler) (template : String) (s : Statistics) : Prop :=
  ∀ inner, .token inner ∈ Token.pieces template.toList →
    ∃ t, f.tokens.get? (String.ofList (Token.canonicalChars inner)) = some t ∧ s.Has t.text

/-- Filling looks up the tokens of a template and the statistics under them, and nothing else. -/
theorem fill_congr_of_tokens {f f' : Filler} {template : String} {s s' : Statistics}
    (hseparator : f'.separator = f.separator)
    (htokens : ∀ inner, .token inner ∈ Token.pieces template.toList →
      f'.tokens.get? (String.ofList (Token.canonicalChars inner)) =
        f.tokens.get? (String.ofList (Token.canonicalChars inner)))
    (hstatistics : ∀ inner, .token inner ∈ Token.pieces template.toList → ∀ t,
      f.tokens.get? (String.ofList (Token.canonicalChars inner)) = some t →
        s'.get? t.text = s.get? t.text) :
    f'.fill template s' = f.fill template s := by
  have hpiece : ∀ piece ∈ Token.pieces template.toList, f'.piece s' piece = f.piece s piece := by
    intro piece hmem
    cases piece with
    | literal c => rfl
    | token inner =>
      simp only [Filler.piece, htokens inner hmem, hseparator]
      cases ht : f.tokens.get? (String.ofList (Token.canonicalChars inner)) with
      | none => rfl
      | some t => simp only [Statistics.require, hstatistics inner hmem t ht]
  rw [fill, fill, Traversal.mapM_congr hpiece]

theorem exists_piece_eq_ok {f : Filler} {template : String} {s : Statistics}
    (h : f.Covers template s) {piece : Token.Piece}
    (hpiece : piece ∈ Token.pieces template.toList) : ∃ text, f.piece s piece = .ok text := by
  cases piece with
  | literal c => exact ⟨[c], rfl⟩
  | token inner =>
    obtain ⟨t, ht, v, hv⟩ := h inner hpiece
    refine ⟨(v.text f.separator).toList, ?_⟩
    simp only [piece, ht, Statistics.require, hv, Except.map]

theorem exists_fill_eq_ok {f : Filler} {template : String} {s : Statistics}
    (h : f.Covers template s) : ∃ text, f.fill template s = .ok text := by
  obtain ⟨texts, htexts⟩ := Traversal.exists_mapM_eq_ok fun _ hpiece ↦ exists_piece_eq_ok h hpiece
  exact ⟨_, Traversal.bind_eq_ok_iff.2 ⟨texts, htexts, rfl⟩⟩

end Filler

/-! ### Groups -/

namespace Group

/-- Under a key are the records with this key, each once and in order. -/
theorem getD_members (field : String) (records : List Record) (key : String) :
    ((members field records).get? key).getD [] =
      records.filter fun r ↦ r.groupKey field == key := by
  suffices hfold : ∀ found : Assoc String (List Record),
      ((records.foldl (fun found r ↦ Assoc.set found (r.groupKey field)
        ((found.get? (r.groupKey field)).getD [] ++ [r])) found).get? key).getD [] =
        (found.get? key).getD [] ++ records.filter fun r ↦ r.groupKey field == key from hfold []
  induction records with
  | nil => exact fun found ↦ (List.append_nil _).symm
  | cons r rest ih =>
    intro found
    rw [List.foldl_cons, ih, Assoc.get?_set, List.filter_cons]
    by_cases hkey : r.groupKey field = key
    · rw [if_pos hkey, if_pos (beq_iff_eq.2 hkey), Option.getD_some, hkey, List.append_assoc,
        List.singleton_append]
    · rw [if_neg hkey, if_neg fun heq ↦ hkey (beq_iff_eq.1 heq)]

theorem total_members (field : String) (records : List Record) (key : String) :
    total (members field records) key = Statistics.sum
      ((records.filter fun r ↦ r.groupKey field == key).map Record.statistics) := by
  rw [total, getD_members]

/-- The sum over a group key has what any record under the key has. -/
theorem covers_total {f : Filler} {template : String} {records : List Record} {field : String}
    {r : Record} (hr : r ∈ records) (h : f.Covers template r.statistics) :
    f.Covers template (total (members field records) (r.groupKey field)) := by
  intro inner hinner
  obtain ⟨t, ht, hhas⟩ := h inner hinner
  rw [total_members]
  refine ⟨t, ht, Statistics.has_sum (List.mem_map.2 ⟨r, ?_, rfl⟩) hhas⟩
  exact List.mem_filter.2 ⟨hr, beq_self_eq_true _⟩

theorem exists_fillShared_eq_ok {f : Filler} {template field : String}
    {found : Assoc String (List Record)} {records : List Record}
    (h : ∀ r ∈ records, f.Covers template (total found (r.groupKey field)))
    (filled : Assoc String String) :
    ∃ texts, fillShared f template field found filled records = .ok texts := by
  induction records generalizing filled with
  | nil => exact ⟨[], rfl⟩
  | cons r rest ih =>
    rw [List.forall_mem_cons] at h
    unfold fillShared
    cases hfilled : filled.get? (r.groupKey field) with
    | some text =>
      obtain ⟨texts, htexts⟩ := ih h.2 filled
      simp only [hfilled]
      exact ⟨text :: texts, Traversal.map_eq_ok_iff.2 ⟨texts, htexts, rfl⟩⟩
    | none =>
      obtain ⟨text, htext⟩ := Filler.exists_fill_eq_ok h.1
      obtain ⟨texts, htexts⟩ := ih h.2 (Assoc.set filled (r.groupKey field) text)
      simp only [hfilled]
      exact ⟨text :: texts, Traversal.bind_eq_ok_iff.2
        ⟨text, htext, Traversal.bind_eq_ok_iff.2 ⟨texts, htexts, rfl⟩⟩⟩

theorem exists_texts_eq_ok {g : Group} {f : Filler} {records : List Record}
    (h : ∀ r ∈ records, f.Covers g.template r.statistics) :
    ∃ texts, g.texts f records = .ok texts := by
  unfold texts
  cases g.grouping with
  | file => exact Traversal.exists_mapM_eq_ok fun r hr ↦ Filler.exists_fill_eq_ok (h r hr)
  | field name => exact exists_fillShared_eq_ok (fun r hr ↦ covers_total hr (h r hr)) []

/-- A group has an outcome once its template can be filled for every record. -/
theorem exists_apply_eq_ok {g : Group} {f : Filler} {records : List Record}
    (h : ∀ r ∈ records, f.Covers g.template r.statistics) :
    ∃ outcome, g.apply f records = .ok outcome := by
  obtain ⟨texts, htexts⟩ := exists_texts_eq_ok h
  exact ⟨_, Traversal.bind_eq_ok_iff.2 ⟨texts, htexts, rfl⟩⟩

end Group

end Jukebox
