import Mathlib.Data.List.Forall2

/-!
Steps that may fail, one after another and along a list. A traversal succeeds exactly when every
step of it does, place by place (`mapM_eq_ok_iff`); the error with which it fails is that of the
first step that fails (`mapM_eq_error_iff`). Traversals whose steps agree, in value or in error,
agree themselves (`Agree.mapM`).
-/

set_option autoImplicit false
set_option relaxedAutoImplicit false

namespace Jukebox.Traversal

variable {ε δ α β : Type}

theorem bind_eq_ok_iff {x : Except ε α} {f : α → Except ε β} {b : β} :
    x >>= f = .ok b ↔ ∃ a, x = .ok a ∧ f a = .ok b := by
  cases x with
  | error e => simp [bind, Except.bind]
  | ok a => simp [bind, Except.bind]

theorem bind_eq_error_iff {x : Except ε α} {f : α → Except ε β} {e : ε} :
    x >>= f = .error e ↔ x = .error e ∨ ∃ a, x = .ok a ∧ f a = .error e := by
  cases x with
  | error e' => simp [bind, Except.bind]
  | ok a => simp [bind, Except.bind]

theorem exists_eq_ok_of_isOk {x : Except ε α} (h : x.isOk = true) : ∃ a, x = .ok a := by
  cases x with
  | error e => cases h
  | ok a => exact ⟨a, rfl⟩

theorem toOption_eq_some_iff {x : Except ε α} {a : α} : x.toOption = some a ↔ x = .ok a := by
  cases x <;> simp [Except.toOption]

/-- Steps with the same results, whatever their errors. -/
theorem toOption_bind_congr {x y : Except ε α} {f g : α → Except ε β}
    (hxy : x.toOption = y.toOption) (hfg : ∀ a, (f a).toOption = (g a).toOption) :
    (x >>= f).toOption = (y >>= g).toOption := by
  cases x with
  | error e =>
    cases y with
    | error e' => rfl
    | ok b => cases hxy
  | ok a =>
    cases y with
    | error e' => cases hxy
    | ok b =>
      obtain rfl := Option.some.inj hxy
      exact hfg a

theorem toOption_map_congr {x y : Except ε α} (f : α → β)
    (hxy : x.toOption = y.toOption) : (x.map f).toOption = (y.map f).toOption := by
  cases x <;> cases y <;> simp_all [Except.toOption, Except.map]

theorem map_eq_ok_iff {x : Except ε α} {f : α → β} {b : β} :
    x.map f = .ok b ↔ ∃ a, x = .ok a ∧ f a = b := by
  cases x <;> simp [Except.map]

theorem map_eq_error_iff {x : Except ε α} {f : α → β} {e : ε} :
    x.map f = .error e ↔ x = .error e := by
  cases x <;> simp [Except.map]

theorem map_bind {γ : Type} {x : Except ε α} {f : α → Except ε β} {g : β → γ} :
    (x >>= f).map g = x >>= fun a ↦ (f a).map g := by
  cases x <;> rfl

theorem mapError_eq_ok_iff {x : Except ε α} {f : ε → δ} {a : α} :
    x.mapError f = .ok a ↔ x = .ok a := by
  cases x <;> simp [Except.mapError]

theorem mapError_eq_error_iff {x : Except ε α} {f : ε → δ} {e : δ} :
    x.mapError f = .error e ↔ ∃ cause, x = .error cause ∧ f cause = e := by
  cases x <;> simp [Except.mapError]

theorem mapM_eq_ok_iff {f : α → Except ε β} {xs : List α} {ys : List β} :
    xs.mapM f = .ok ys ↔ List.Forall₂ (fun x y ↦ f x = .ok y) xs ys := by
  induction xs generalizing ys with
  | nil => simp [pure, Except.pure, eq_comm]
  | cons x rest ih =>
    rw [List.mapM_cons, bind_eq_ok_iff, List.forall₂_cons_left_iff]
    constructor
    · rintro ⟨y, hy, hrest⟩
      obtain ⟨zs, hzs, hys⟩ := bind_eq_ok_iff.1 hrest
      cases hys
      exact ⟨y, zs, hy, ih.1 hzs, rfl⟩
    · rintro ⟨y, zs, hy, hzs, rfl⟩
      exact ⟨y, hy, bind_eq_ok_iff.2 ⟨zs, ih.2 hzs, rfl⟩⟩

theorem rel_getElem? {P : α → β → Prop} {xs : List α} {ys : List β} (h : List.Forall₂ P xs ys)
    (i : Nat) : Option.Rel P xs[i]? ys[i]? := by
  induction h generalizing i with
  | nil => exact .none
  | cons hfirst _ ih =>
    cases i with
    | zero => exact .some hfirst
    | succ i => exact ih i

/-- Where a step has one value at most, equal members of two lists have equal values. -/
theorem getElem?_eq_of_forall₂ {P : α → β → Prop} (hP : ∀ x y z, P x y → P x z → y = z)
    {xs others : List α} {ys values : List β} (h : List.Forall₂ P xs ys)
    (hother : List.Forall₂ P others values) {i j : Nat} (hij : xs[i]? = others[j]?) :
    ys[i]? = values[j]? := by
  have hy := rel_getElem? h i
  have hz := rel_getElem? hother j
  rw [hij] at hy
  generalize others[j]? = x, ys[i]? = y, values[j]? = z at *
  cases hy with
  | none =>
    cases hz
    rfl
  | some hy =>
    cases hz with
    | some hz => rw [hP _ _ _ hy hz]

/-- Where steps succeed only with the values of a function, a traversal succeeds only with its
values along the list. -/
theorem mapM_eq_ok_iff_map {f : α → Except ε β} {g : α → β} (hg : ∀ x y, f x = .ok y → y = g x)
    {xs : List α} {ys : List β} :
    xs.mapM f = .ok ys ↔ (∀ x ∈ xs, ∃ y, f x = .ok y) ∧ ys = xs.map g := by
  rw [mapM_eq_ok_iff]
  constructor
  · intro h
    induction h with
    | nil => exact ⟨List.forall_mem_nil _, rfl⟩
    | cons hy _ ih =>
      refine ⟨List.forall_mem_cons.2 ⟨⟨_, hy⟩, ih.1⟩, ?_⟩
      rw [List.map_cons, ← hg _ _ hy, ← ih.2]
  · rintro ⟨hall, rfl⟩
    rw [List.forall₂_map_right_iff, List.forall₂_same]
    intro x hx
    obtain ⟨y, hy⟩ := hall x hx
    rw [hy, hg x y hy]

/-- Where the value of a step tells what the step was for, the values of a traversal tell the
list. -/
theorem map_eq_of_mapM_eq_ok {f : α → Except ε β} {g : β → α} (hg : ∀ x y, f x = .ok y → g y = x)
    {xs : List α} {ys : List β} (h : xs.mapM f = .ok ys) : ys.map g = xs := by
  rw [mapM_eq_ok_iff] at h
  induction h with
  | nil => rfl
  | cons hfirst _ ih => rw [List.map_cons, hg _ _ hfirst, ih]

/-- Every value of a traversal comes from a step. -/
theorem exists_eq_ok_of_mem {f : α → Except ε β} {xs : List α} {ys : List β}
    (h : xs.mapM f = .ok ys) {y : β} (hy : y ∈ ys) : ∃ x ∈ xs, f x = .ok y := by
  rw [mapM_eq_ok_iff] at h
  induction h with
  | nil => cases hy
  | cons hfirst _ ih =>
    rcases List.mem_cons.1 hy with rfl | hy
    · exact ⟨_, List.mem_cons_self, hfirst⟩
    · obtain ⟨x, hx, hok⟩ := ih hy
      exact ⟨x, List.mem_cons_of_mem _ hx, hok⟩

theorem exists_mapM_eq_ok {f : α → Except ε β} {xs : List α}
    (h : ∀ x ∈ xs, ∃ y, f x = .ok y) : ∃ ys, xs.mapM f = .ok ys := by
  induction xs with
  | nil => exact ⟨[], rfl⟩
  | cons x rest ih =>
    rw [List.forall_mem_cons] at h
    obtain ⟨y, hy⟩ := h.1
    obtain ⟨ys, hys⟩ := ih h.2
    exact ⟨y :: ys, mapM_eq_ok_iff.2 (.cons hy (mapM_eq_ok_iff.1 hys))⟩

theorem mapM_congr {f g : α → Except ε β} {xs : List α} (h : ∀ x ∈ xs, f x = g x) :
    xs.mapM f = xs.mapM g := by
  induction xs with
  | nil => rfl
  | cons x rest ih =>
    rw [List.forall_mem_cons] at h
    rw [List.mapM_cons, List.mapM_cons, h.1, ih h.2]

/-- A traversal succeeds if and only if each of its steps does. -/
theorem exists_mapM_eq_ok_iff {f : α → Except ε β} {xs : List α} :
    (∃ ys, xs.mapM f = .ok ys) ↔ ∀ x ∈ xs, ∃ y, f x = .ok y := by
  refine ⟨?_, exists_mapM_eq_ok⟩
  rintro ⟨ys, h⟩
  rw [mapM_eq_ok_iff] at h
  induction h with
  | nil => exact List.forall_mem_nil _
  | cons hfirst _ ih => exact List.forall_mem_cons.2 ⟨⟨_, hfirst⟩, ih⟩

/-- A traversal fails with the error of the first step that fails. -/
theorem mapM_eq_error_iff {f : α → Except ε β} {xs : List α} {e : ε} :
    xs.mapM f = .error e ↔ ∃ before x after, xs = before ++ x :: after ∧
      (∀ y ∈ before, ∃ b, f y = .ok b) ∧ f x = .error e := by
  induction xs with
  | nil => simp [pure, Except.pure]
  | cons x rest ih =>
    rw [List.mapM_cons, bind_eq_error_iff]
    constructor
    · rintro (hx | ⟨y, hy, hrest⟩)
      · exact ⟨[], x, rest, rfl, List.forall_mem_nil _, hx⟩
      · rcases bind_eq_error_iff.1 hrest with hrest | ⟨ys, _, hpure⟩
        · obtain ⟨before, z, after, rfl, hbefore, hz⟩ := ih.1 hrest
          exact ⟨x :: before, z, after, rfl, List.forall_mem_cons.2 ⟨⟨y, hy⟩, hbefore⟩, hz⟩
        · cases hpure
    · rintro ⟨before, z, after, hsplit, hbefore, hz⟩
      cases before with
      | nil =>
        obtain ⟨rfl, rfl⟩ := List.cons.inj hsplit
        exact Or.inl hz
      | cons x' before =>
        obtain ⟨rfl, rfl⟩ := List.cons.inj hsplit
        rw [List.forall_mem_cons] at hbefore
        obtain ⟨y, hy⟩ := hbefore.1
        have hrest := ih.2 ⟨before, z, after, rfl, hbefore.2, hz⟩
        exact Or.inr ⟨y, hy, bind_eq_error_iff.2 (Or.inl hrest)⟩

theorem exists_mem_eq_error {f : α → Except ε β} {xs : List α} {e : ε}
    (h : xs.mapM f = .error e) : ∃ x ∈ xs, f x = .error e := by
  obtain ⟨before, x, after, rfl, _, hx⟩ := mapM_eq_error_iff.1 h
  exact ⟨x, List.mem_append_right _ List.mem_cons_self, hx⟩

/-- A numbered traversal fails with the error of a step before which all steps succeed. -/
theorem mapM_zipIdx_eq_error {f : α × Nat → Except ε β} {xs : List α} {e : ε}
    (h : xs.zipIdx.mapM f = .error e) : ∃ i x, xs[i]? = some x ∧ f (x, i) = .error e ∧
      ∀ j < i, ∀ y, xs[j]? = some y → ∃ b, f (y, j) = .ok b := by
  obtain ⟨before, ⟨x, i⟩, after, hsplit, hbefore, hx⟩ := mapM_eq_error_iff.1 h
  -- Numbered members stand at the places that their numbers say.
  have hplace : xs.zipIdx[before.length]? = some (x, i) := by simp [hsplit]
  rw [List.getElem?_zipIdx, Nat.zero_add, Option.map_eq_some_iff] at hplace
  obtain ⟨x', hx', heq⟩ := hplace
  obtain ⟨rfl, rfl⟩ := Prod.mk.inj heq
  refine ⟨before.length, x', hx', hx, fun j hj y hy ↦ hbefore (y, j) ?_⟩
  have hnumbered : xs.zipIdx[j]? = some (y, j) := by simp [hy]
  rw [hsplit, List.getElem?_append_left hj] at hnumbered
  exact List.mem_of_getElem? hnumbered

/-! ### Attempts that agree -/

/-- Two attempts agree if both succeed, with related values, or both fail, with one error. -/
inductive Agree (R : α → β → Prop) : Except ε α → Except ε β → Prop
  | ok {a : α} {b : β} (h : R a b) : Agree R (.ok a) (.ok b)
  | error (e : ε) : Agree R (.error e) (.error e)

namespace Agree

variable {γ κ : Type} {R : α → β → Prop} {S : γ → κ → Prop}

theorem bind {x : Except ε α} {y : Except ε β} {f : α → Except ε γ} {g : β → Except ε κ}
    (h : Agree R x y) (hfg : ∀ a b, R a b → Agree S (f a) (g b)) : Agree S (x >>= f) (y >>= g) := by
  cases h with
  | ok h => exact hfg _ _ h
  | error e => exact .error e

theorem mapM {f : α → Except ε γ} {g : β → Except ε κ} {xs : List α} {ys : List β}
    (h : List.Forall₂ (fun x y ↦ Agree S (f x) (g y)) xs ys) :
    Agree (List.Forall₂ S) (xs.mapM f) (ys.mapM g) := by
  induction h with
  | nil => exact .ok .nil
  | cons hfirst _ ih =>
    rw [List.mapM_cons, List.mapM_cons]
    exact hfirst.bind fun a b hab ↦ ih.bind fun as bs hrest ↦ .ok (.cons hab hrest)

theorem mapM_zipIdx {f : α × Nat → Except ε γ} {g : β × Nat → Except ε κ} {xs : List α}
    {ys : List β} (h : List.Forall₂ (fun x y ↦ ∀ i, Agree S (f (x, i)) (g (y, i))) xs ys) :
    Agree (List.Forall₂ S) (xs.zipIdx.mapM f) (ys.zipIdx.mapM g) := by
  refine mapM ?_
  suffices hfrom : ∀ n, List.Forall₂ (fun p q ↦ Agree S (f p) (g q)) (xs.zipIdx n) (ys.zipIdx n) from
    hfrom 0
  induction h with
  | nil => exact fun _ ↦ .nil
  | cons hfirst _ ih => exact fun n ↦ .cons (hfirst n) (ih (n + 1))

end Agree

end Jukebox.Traversal
