/-!
Finite maps as lists of pairs, each key at most once. `get?` finds a value and `set` puts one,
keeping the place of a key that is already there.

`get?_set` says that a put value is found under its own key and disturbs no other. Where each key
comes once, the pairs of the list are what `get?` finds (`mem_iff_get?`). So the keys of a list may
be mapped to their places (`get?_zipIdx`).
-/

set_option autoImplicit false
set_option relaxedAutoImplicit false

namespace Jukebox

/-- A finite map with its keys in the order in which they came. -/
abbrev Assoc (κ α : Type) := List (κ × α)

namespace Assoc

variable {κ α : Type} [DecidableEq κ]

/-- The value under a key. -/
def get? : Assoc κ α → κ → Option α
  | [], _ => none
  | (k, a) :: rest, key => if k = key then some a else get? rest key

/-- The map with `a` under `key`. -/
def set : Assoc κ α → κ → α → Assoc κ α
  | [], key, a => [(key, a)]
  | (k, b) :: rest, key, a => if k = key then (k, a) :: rest else (k, b) :: set rest key a

/-- The keys, in order. -/
def keys (m : Assoc κ α) : List κ := m.map Prod.fst

@[simp] theorem get?_nil (key : κ) : get? ([] : Assoc κ α) key = none := rfl

theorem get?_set (m : Assoc κ α) (key other : κ) (a : α) :
    get? (set m key a) other = if key = other then some a else get? m other := by
  induction m with
  | nil => simp [set, get?]
  | cons p rest ih =>
    obtain ⟨k, b⟩ := p
    by_cases hk : k = key
    · subst hk
      simp only [set, if_pos, get?]
      split <;> rfl
    · simp only [set, if_neg hk, get?, ih]
      by_cases ho : k = other
      · simp [ho, Ne.symm (ho ▸ hk)]
      · simp [ho]

@[simp] theorem get?_set_self (m : Assoc κ α) (key : κ) (a : α) :
    get? (set m key a) key = some a := by
  simp [get?_set]

theorem mem_keys_set (m : Assoc κ α) (key other : κ) (a : α) :
    other ∈ keys (set m key a) ↔ other = key ∨ other ∈ keys m := by
  induction m with
  | nil => simp [set, keys]
  | cons p rest ih =>
    obtain ⟨k, b⟩ := p
    simp only [keys] at ih
    by_cases hk : k = key
    · subst hk
      simp [set, keys]
    · simp only [set, if_neg hk, keys, List.map_cons, List.mem_cons, ih]
      grind

theorem get?_eq_none_iff (m : Assoc κ α) (key : κ) : get? m key = none ↔ key ∉ keys m := by
  induction m with
  | nil => simp [keys]
  | cons p rest ih =>
    obtain ⟨k, b⟩ := p
    by_cases hk : k = key
    · simp [get?, keys, hk]
    · simp [get?, keys, hk, Ne.symm hk] at ih ⊢
      exact ih

theorem keys_nodup_set {m : Assoc κ α} (h : (keys m).Nodup) (key : κ) (a : α) :
    (keys (set m key a)).Nodup := by
  induction m with
  | nil => simp [set, keys]
  | cons p rest ih =>
    obtain ⟨k, b⟩ := p
    simp only [keys, List.map_cons, List.nodup_cons] at h
    by_cases hk : k = key
    · subst hk
      simp only [set, if_pos, keys, List.map_cons, List.nodup_cons]
      exact h
    · have hmem : k ∉ keys (set rest key a) := by
        rw [mem_keys_set]
        exact fun hor ↦ hor.elim hk h.1
      simp only [set, if_neg hk, keys, List.map_cons, List.nodup_cons]
      exact ⟨hmem, ih h.2⟩

omit [DecidableEq κ] in
/-- Steps that leave each key in one place at most do so together. -/
theorem keys_nodup_foldl {β : Type} {step : Assoc κ α → β → Assoc κ α}
    (hstep : ∀ m b, (keys m).Nodup → (keys (step m b)).Nodup) {m : Assoc κ α}
    (h : (keys m).Nodup) (bs : List β) : (keys (bs.foldl step m)).Nodup := by
  induction bs generalizing m with
  | nil => exact h
  | cons b rest ih => exact ih (hstep m b h)

theorem mem_set {m : Assoc κ α} (h : (keys m).Nodup) {key : κ} {a : α} {p : κ × α} :
    p ∈ set m key a ↔ p = (key, a) ∨ p ∈ m ∧ p.1 ≠ key := by
  induction m with
  | nil => simp [set]
  | cons q rest ih =>
    obtain ⟨k, b⟩ := q
    rw [keys, List.map_cons, List.nodup_cons] at h
    by_cases hk : k = key
    · subst hk
      -- The key stands at the head and so nowhere behind it.
      have hrest : p ∈ rest → p.1 ≠ k := fun hp heq ↦ h.1 (List.mem_map.2 ⟨p, hp, heq⟩)
      rw [set, if_pos rfl, List.mem_cons, List.mem_cons]
      grind
    · rw [set, if_neg hk, List.mem_cons, List.mem_cons, ih h.2]
      grind

theorem mem_iff_get? {m : Assoc κ α} (h : (keys m).Nodup) {key : κ} {a : α} :
    (key, a) ∈ m ↔ m.get? key = some a := by
  induction m with
  | nil => simp
  | cons q rest ih =>
    obtain ⟨k, b⟩ := q
    rw [keys, List.map_cons, List.nodup_cons] at h
    rw [get?, List.mem_cons, ih h.2]
    by_cases hk : k = key
    · subst hk
      have hnone := (get?_eq_none_iff rest k).2 h.1
      simp [hnone, eq_comm]
    · simp [hk, Ne.symm hk]

/-- A new key comes behind all others. -/
theorem set_of_get?_eq_none {m : Assoc κ α} {key : κ} (h : get? m key = none) (a : α) :
    set m key a = m ++ [(key, a)] := by
  induction m with
  | nil => rfl
  | cons p rest ih =>
    obtain ⟨k, b⟩ := p
    have hk : k ≠ key := fun hk ↦ by simp [get?, hk] at h
    rw [get?, if_neg hk] at h
    rw [set, if_neg hk, ih h, List.cons_append]

theorem get?_zipIdx {ks : List κ} (h : ks.Nodup) {key : κ} {i : Nat} :
    get? ks.zipIdx key = some i ↔ ks[i]? = some key := by
  have hkeys : (keys ks.zipIdx).Nodup := by rwa [keys, List.zipIdx_map_fst]
  rw [← mem_iff_get? hkeys, List.mk_mem_zipIdx_iff_getElem?]

end Assoc

end Jukebox
