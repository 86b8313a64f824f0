import Jukebox.Proofs.Token.Lookup

/-!
Collecting tokens from texts. A text, its canonical text and that one's canonical text stand for
the same token or for none (`NamedToken.ofText_canonical_eq_ok_iff`), so it does not matter that a
collection goes by canonical texts when it skips what it has read, names a token and finds it.

`Reading.Collected` says what has been read after some texts: the tokens have the texts of the
accepted ones and the rejected names are those of the failing ones, each once and in the order in
which they came. One step keeps it (`Reading.Collected.step`) and so a pass does
(`Reading.collected_foldl`). At the end there is a set that finds every text, or one error for each
name that failed (`ofTexts_collects_or_names_failures`).
-/

set_option autoImplicit false
set_option relaxedAutoImplicit false

namespace Jukebox

open Calendar Token

/-! ### Lists without repetitions -/

namespace Distinct

section Members

variable {α : Type} [BEq α] [LawfulBEq α]

theorem eraseDups_concat_of_mem {as : List α} {b : α} (h : b ∈ as) :
    (as ++ [b]).eraseDups = as.eraseDups := by
  simp [List.eraseDups_append, List.removeAll, h]

theorem eraseDups_concat_of_not_mem {as : List α} {b : α} (h : b ∉ as) :
    (as ++ [b]).eraseDups = as.eraseDups ++ [b] := by
  simp [List.eraseDups_append, List.removeAll, h, List.eraseDups_cons]

theorem eraseDups_eq_self {as : List α} (h : as.Nodup) : as.eraseDups = as := by
  induction as using List.reverseRecOn with
  | nil => rfl
  | append_singleton as b ih =>
    have hb : b ∉ as := fun hmem ↦
      (List.nodup_append.1 h).2.2 b hmem b List.mem_cons_self rfl
    rw [eraseDups_concat_of_not_mem hb, ih (List.nodup_append.1 h).1]

end Members

section Images

variable {α β : Type} [BEq β] {p : α → Bool} {f : α → β} {as : List α}

/-- The values of a function at the members that pass a test, each once, as they first come. -/
def images (p : α → Bool) (f : α → β) (as : List α) : List β := ((as.filter p).map f).eraseDups

theorem images_concat_of_fails {a : α} (h : p a = false) :
    images p f (as ++ [a]) = images p f as := by
  rw [images, List.filter_append, List.filter_singleton, h, cond_false, List.append_nil, images]

variable [LawfulBEq β]

theorem mem_images {b : β} : b ∈ images p f as ↔ ∃ a ∈ as, p a = true ∧ f a = b := by
  simp only [images, List.mem_eraseDups, List.mem_map, List.mem_filter, and_assoc]

theorem images_eq_nil_iff : images p f as = [] ↔ ∀ a ∈ as, p a = false := by
  rw [List.eq_nil_iff_forall_not_mem]
  constructor
  · intro h a ha
    by_contra hp
    exact h (f a) (mem_images.2 ⟨a, ha, Bool.not_eq_false _ ▸ hp, rfl⟩)
  · rintro h b hb
    obtain ⟨a, ha, hp, _⟩ := mem_images.1 hb
    rw [h a ha] at hp
    cases hp

theorem images_concat_of_mem {a : α} (h : f a ∈ images p f as) :
    images p f (as ++ [a]) = images p f as := by
  cases hp : p a with
  | false => exact images_concat_of_fails hp
  | true =>
    rw [images, List.filter_append, List.filter_singleton, hp, cond_true, List.map_append,
      List.map_singleton, eraseDups_concat_of_mem (List.mem_eraseDups.1 h), images]

theorem images_concat_of_new {a : α} (hp : p a = true) (h : f a ∉ images p f as) :
    images p f (as ++ [a]) = images p f as ++ [f a] := by
  rw [images, List.filter_append, List.filter_singleton, hp, cond_true, List.map_append,
    List.map_singleton, eraseDups_concat_of_not_mem (fun hmem ↦ h (List.mem_eraseDups.2 hmem)),
    images]

end Images

end Distinct

/-! ### The name of a token has no part in its meaning -/

namespace Token

variable (text name : String)

theorem toOption_windowFrom (start : Instant) (length : Option Amount) (unit : Span) :
    (windowFrom text start length unit).toOption =
      (windowFrom name start length unit).toOption := by
  unfold windowFrom
  dsimp only
  split <;> rfl

theorem toOption_dateStart (year month day : Nat) (time : Option (Nat × Nat)) :
    (dateStart text year month day time).toOption =
      (dateStart name year month day time).toOption := by
  unfold dateStart
  split
  · rfl
  · dsimp only
    split <;> rfl

theorem toOption_checkValues (selector : String) (low high : Nat) (values : List Nat) :
    (checkValues text selector low high values).toOption =
      (checkValues name selector low high values).toOption := by
  unfold checkValues
  split <;> rfl

theorem toOption_ofKeyword (word : Keyword) (value : Option Nat) :
    (ofKeyword text word value).toOption = (ofKeyword name word value).toOption := by
  cases value with
  | none => cases word <;> rfl
  | some y =>
    cases word with
    | perYear =>
      exact Traversal.toOption_bind_congr (toOption_checkValues text name _ _ _ _) fun _ ↦ rfl
    | _ => rfl

/-- Under whatever name, a token has the same meaning or none. -/
theorem Expr.toOption_resolve (r : Reference) (e : Expr) :
    (e.resolve text r).toOption = (e.resolve name r).toOption := by
  cases e with
  | relative anchor shift length =>
    rw [Expr.resolve, Expr.resolve]
    cases rangeStart? r anchor shift with
    | none => rfl
    | some start => exact Traversal.toOption_map_congr _ (toOption_windowFrom text name _ _ _)
  | date year month day time length =>
    exact Traversal.toOption_bind_congr (toOption_dateStart text name _ _ _ _) fun _ ↦
      Traversal.toOption_map_congr _ (toOption_windowFrom text name _ _ _)
  | years values =>
    exact Traversal.toOption_bind_congr (toOption_checkValues text name _ _ _ _) fun _ ↦ rfl
  | months values =>
    exact Traversal.toOption_bind_congr (toOption_checkValues text name _ _ _ _) fun _ ↦ rfl
  | weekdayNumbers values =>
    exact Traversal.toOption_bind_congr (toOption_checkValues text name _ _ _ _) fun _ ↦ rfl
  | weekdayNames days => rfl
  | keyword word value => exact toOption_ofKeyword text name word value

theorem Expr.resolve_eq_ok_iff_of_name {r : Reference} {e : Expr} {token : Token} :
    e.resolve text r = .ok token ↔ e.resolve name r = .ok token := by
  rw [← Traversal.toOption_eq_some_iff, ← Traversal.toOption_eq_some_iff,
    toOption_resolve text name]

/-- A text is read by its canonical text. -/
theorem Expr.ofText_congr {text name : String} (h : canonical text = canonical name) :
    Expr.ofText text = Expr.ofText name := by
  have hchars : canonicalChars text.toList = canonicalChars name.toList := by
    rw [← toList_canonical, ← toList_canonical, h]
  unfold Expr.ofText
  rw [hchars]

end Token

/-! ### A text and its canonical text -/

namespace NamedToken

theorem ofText_eq_ok_iff {text : String} {r : Reference} {t : NamedToken} :
    ofText text r = .ok t ↔ t.text = canonical text ∧ t.Resolves r := by
  refine ⟨ofText_eq_ok, fun ⟨htext, e, hread, hresolve⟩ ↦ ?_⟩
  rw [htext] at hread hresolve
  refine Traversal.bind_eq_ok_iff.2 ⟨e, hread, Traversal.bind_eq_ok_iff.2 ⟨_, hresolve, ?_⟩⟩
  rw [← htext]

theorem ofText_congr {text name : String} (h : canonical text = canonical name) (r : Reference) :
    ofText text r = ofText name r := by
  unfold ofText
  rw [h]

/-- A text and its canonical text stand for the same token, under two names. -/
theorem ofText_canonical_eq_ok_iff {text : String} {r : Reference} {token : Token} :
    ofText (canonical text) r = .ok ⟨canonical (canonical text), token⟩ ↔
      ofText text r = .ok ⟨canonical text, token⟩ := by
  rw [ofText_eq_ok_iff, ofText_eq_ok_iff]
  unfold Resolves
  simp only [true_and]
  rw [Expr.ofText_congr (canonical_thrice text)]
  exact exists_congr fun e ↦ and_congr_right fun _ ↦
    Expr.resolve_eq_ok_iff_of_name (canonical (canonical text)) (canonical text)

/-- Whether a text stands for a token. -/
def accepts (r : Reference) (text : String) : Bool := (ofText text r).isOk

theorem accepts_iff {r : Reference} {text : String} :
    accepts r text = true ↔ ∃ t, ofText text r = .ok t := by
  unfold accepts
  cases ofText text r <;> simp [Except.isOk, Except.toBool]

theorem not_accepts_iff {r : Reference} {text : String} :
    accepts r text = false ↔ ∃ e, ofText text r = .error e := by
  unfold accepts
  cases ofText text r <;> simp [Except.isOk, Except.toBool]

theorem accepts_congr {text name : String} (h : canonical text = canonical name) (r : Reference) :
    accepts r text = accepts r name := by
  unfold accepts
  rw [ofText_congr h]

theorem accepts_canonical (r : Reference) (text : String) :
    accepts r (canonical text) = accepts r text := by
  rw [Bool.eq_iff_iff, accepts_iff, accepts_iff]
  constructor
  · rintro ⟨⟨name, token⟩, h⟩
    obtain rfl : name = canonical (canonical text) := (ofText_eq_ok h).1
    exact ⟨_, ofText_canonical_eq_ok_iff.1 h⟩
  · rintro ⟨⟨name, token⟩, h⟩
    obtain rfl : name = canonical text := (ofText_eq_ok h).1
    exact ⟨_, ofText_canonical_eq_ok_iff.2 h⟩

end NamedToken

namespace TokenSet

open NamedToken

/-! ### Looking up among canonical texts -/

/-- Where every text is canonical, a token is found under the canonical text of what is asked
for. -/
theorem get?_eq_find?_canonical {s : TokenSet} (h : ∀ name ∈ s.texts, canonical name = name)
    (text : String) : s.get? text = s.find? (canonical text) := by
  rw [get?_eq]
  cases hfound : s.find? text with
  | none => rfl
  | some t =>
    have htext : t.text = text := text_of_find?_eq_some hfound
    have hmem : text ∈ s.texts :=
      htext ▸ List.mem_map_of_mem (List.mem_of_find?_eq_some hfound)
    rw [h text hmem, hfound]
    rfl

/-- What two sets with canonical texts find under one text is the same token. -/
theorem eq_of_get?_eq_some {s s' : TokenSet} {r : Reference} {text : String} {t t' : NamedToken}
    (hcanonical : ∀ name ∈ s.texts, canonical name = name)
    (hcanonical' : ∀ name ∈ s'.texts, canonical name = name)
    (hresolves : ∀ t ∈ s.tokens, t.Resolves r) (hresolves' : ∀ t ∈ s'.tokens, t.Resolves r)
    (ht : s.get? text = some t) (ht' : s'.get? text = some t') : t' = t := by
  have hmem := hresolves t (mem_of_get?_eq_some ht)
  have hmem' := hresolves' t' (mem_of_get?_eq_some ht')
  rw [get?_eq_find?_canonical hcanonical] at ht
  rw [get?_eq_find?_canonical hcanonical'] at ht'
  have htext : t'.text = t.text :=
    (text_of_find?_eq_some ht').trans (text_of_find?_eq_some ht).symm
  exact congrArg₂ NamedToken.mk htext (hmem.token_eq hmem' htext)

/-! ### Reading one text after another -/

/-- The names of the texts that stand for tokens, each once. -/
def acceptedNames (r : Reference) : List String → List String :=
  Distinct.images (accepts r) fun text ↦ canonical (canonical text)

/-- The canonical texts of the texts that stand for no token, each once. -/
def failingNames (r : Reference) : List String → List String :=
  Distinct.images (fun text ↦ !accepts r text) canonical

theorem mem_acceptedNames {r : Reference} {texts : List String} {name : String} :
    name ∈ acceptedNames r texts ↔
      ∃ text ∈ texts, accepts r text = true ∧ canonical (canonical text) = name :=
  Distinct.mem_images

theorem mem_failingNames {r : Reference} {texts : List String} {name : String} :
    name ∈ failingNames r texts ↔
      ∃ text ∈ texts, accepts r text = false ∧ canonical text = name := by
  simp only [failingNames, Distinct.mem_images, Bool.not_eq_true']

/-- What has been read after some texts. -/
structure Reading.Collected (r : Reference) (texts : List String) (acc : Reading) : Prop where
  texts_eq : acc.tokens.texts = acceptedNames r texts
  resolves : ∀ t ∈ acc.tokens.tokens, t.Resolves r
  rejected_eq : acc.rejected = failingNames r texts
  errors : List.Forall₂ (fun name e ↦ ofText name r = .error e) acc.rejected acc.errors

namespace Reading

variable {r : Reference} {texts : List String} {acc : Reading} {text : String}

theorem collected_nil (r : Reference) : Collected r [] ⟨empty, [], []⟩ :=
  ⟨rfl, (fun t ht ↦ by cases ht), rfl, .nil⟩

theorem acceptedNames_concat_of_fails (h : accepts r text = false) :
    acceptedNames r (texts ++ [text]) = acceptedNames r texts :=
  Distinct.images_concat_of_fails h

theorem acceptedNames_concat_of_mem (h : canonical (canonical text) ∈ acceptedNames r texts) :
    acceptedNames r (texts ++ [text]) = acceptedNames r texts :=
  Distinct.images_concat_of_mem (f := fun text ↦ canonical (canonical text)) h

theorem acceptedNames_concat_of_new (haccepts : accepts r text = true)
    (h : canonical (canonical text) ∉ acceptedNames r texts) :
    acceptedNames r (texts ++ [text]) =
      acceptedNames r texts ++ [canonical (canonical text)] :=
  Distinct.images_concat_of_new (f := fun text ↦ canonical (canonical text)) haccepts h

theorem failingNames_concat_of_accepts (h : accepts r text = true) :
    failingNames r (texts ++ [text]) = failingNames r texts :=
  Distinct.images_concat_of_fails (by rw [h, Bool.not_true])

/-- A text that has the name of a token of the set stands for that token. -/
theorem Collected.of_accepted (h : Collected r texts acc)
    (hmem : canonical text ∈ acceptedNames r texts) : Collected r (texts ++ [text]) acc := by
  obtain ⟨other, _, hother, hname⟩ := mem_acceptedNames.1 hmem
  -- The name has been through two passes before, so it is the name of the text as well.
  have htwice : canonical (canonical text) = canonical text := by rw [← hname, canonical_thrice]
  have htext : accepts r text = true := by
    rw [accepts_congr hname.symm, accepts_canonical, hother]
  have htexts : acceptedNames r (texts ++ [text]) = acceptedNames r texts := by
    apply acceptedNames_concat_of_mem
    rw [htwice]
    exact hmem
  exact ⟨h.texts_eq.trans htexts.symm, h.resolves,
    h.rejected_eq.trans (failingNames_concat_of_accepts htext).symm, h.errors⟩

theorem Collected.of_rejected (h : Collected r texts acc)
    (hmem : canonical text ∈ failingNames r texts) : Collected r (texts ++ [text]) acc := by
  obtain ⟨other, _, hother, hname⟩ := mem_failingNames.1 hmem
  have htext : accepts r text = false := by rw [accepts_congr hname.symm, hother]
  have hfailing : failingNames r (texts ++ [text]) = failingNames r texts :=
    Distinct.images_concat_of_mem hmem
  exact ⟨h.texts_eq.trans (acceptedNames_concat_of_fails htext).symm, h.resolves,
    h.rejected_eq.trans hfailing.symm, h.errors⟩

theorem Collected.insert (h : Collected r texts acc) {t : NamedToken}
    (hread : ofText (canonical text) r = .ok t) :
    Collected r (texts ++ [text]) { acc with tokens := acc.tokens.insert t } := by
  obtain ⟨hname, hresolves⟩ := ofText_eq_ok hread
  have htext : accepts r text = true := by
    rw [← accepts_canonical, accepts_iff]
    exact ⟨t, hread⟩
  refine ⟨?_, fun u hu ↦ ?_, ?_, h.errors⟩
  · rw [texts_insert, hname, h.texts_eq]
    split
    · rename_i hmem
      exact (acceptedNames_concat_of_mem hmem).symm
    · rename_i hnew
      exact (acceptedNames_concat_of_new htext hnew).symm
  · exact (mem_tokens_insert hu).elim (h.resolves u) fun heq ↦ heq ▸ hresolves
  · exact h.rejected_eq.trans (failingNames_concat_of_accepts htext).symm

theorem Collected.reject (h : Collected r texts acc) {e : TokenError}
    (hread : ofText (canonical text) r = .error e) (hnew : canonical text ∉ failingNames r texts) :
    Collected r (texts ++ [text])
      { acc with rejected := acc.rejected ++ [canonical text], errors := acc.errors ++ [e] } := by
  have htext : accepts r text = false := by
    rw [← accepts_canonical, not_accepts_iff]
    exact ⟨e, hread⟩
  have hfailing : failingNames r (texts ++ [text]) = failingNames r texts ++ [canonical text] :=
    Distinct.images_concat_of_new (by rw [htext, Bool.not_false]) hnew
  refine ⟨h.texts_eq.trans (acceptedNames_concat_of_fails htext).symm, h.resolves, ?_,
    List.rel_append h.errors (.cons hread .nil)⟩
  rw [hfailing, h.rejected_eq]

/-- One step adds the token of a text or what is wrong with it, or has seen the text before. -/
theorem Collected.step (h : Collected r texts acc) (text : String) :
    Collected r (texts ++ [text]) (acc.step r text) := by
  rw [Reading.step]
  split
  · rename_i hseen
    rw [Bool.or_eq_true, contains_iff, List.contains_iff_mem, h.texts_eq,
      h.rejected_eq] at hseen
    exact hseen.elim h.of_accepted h.of_rejected
  · rename_i hnew
    rw [Bool.or_eq_true, contains_iff, List.contains_iff_mem, h.rejected_eq,
      not_or] at hnew
    cases hread : ofText (canonical text) r with
    | ok t => exact h.insert hread
    | error e => exact h.reject hread hnew.2

/-- What a pass over some texts has read. -/
theorem collected_foldl (r : Reference) (texts : List String) :
    Collected r texts (texts.foldl (Reading.step r) ⟨empty, [], []⟩) := by
  -- A step reads the last text, so the texts are taken from behind.
  induction texts using List.reverseRecOn with
  | nil => exact collected_nil r
  | append_singleton texts text ih =>
    rw [List.foldl_append]
    exact ih.step text

end Reading

/-! ### Collections -/

theorem ofTexts_eq_ok_iff {texts : List String} {r : Reference} {s : TokenSet} :
    ofTexts texts r = .ok s ↔
      (∀ text ∈ texts, accepts r text = true) ∧
        (texts.foldl (Reading.step r) ⟨empty, [], []⟩).tokens = s := by
  have hread := Reading.collected_foldl r texts
  have hfailing : (texts.foldl (Reading.step r) ⟨empty, [], []⟩).errors = [] ↔
      ∀ text ∈ texts, accepts r text = true := by
    rw [← List.length_eq_zero_iff, ← hread.errors.length_eq, List.length_eq_zero_iff,
      hread.rejected_eq, failingNames, Distinct.images_eq_nil_iff]
    simp only [Bool.not_eq_false']
  rw [ofTexts, ← hfailing]
  split
  · rename_i herrors
    rw [Except.ok.injEq, and_iff_right herrors]
  · rename_i herrors
    exact iff_of_false (fun h ↦ by cases h) fun h ↦ herrors h.1

/-- The tokens of a collection: those of its texts, each once, under canonical texts. -/
theorem texts_of_ofTexts {texts : List String} {r : Reference} {s : TokenSet}
    (h : ofTexts texts r = .ok s) :
    s.texts = (texts.map fun text ↦ canonical (canonical text)).eraseDups := by
  obtain ⟨haccepts, rfl⟩ := ofTexts_eq_ok_iff.1 h
  rw [(Reading.collected_foldl r texts).texts_eq, acceptedNames, Distinct.images,
    List.filter_eq_self.2 haccepts]

theorem canonical_canonical_mem_texts {texts : List String} {r : Reference} {s : TokenSet}
    (h : ofTexts texts r = .ok s) {text : String} (hmem : text ∈ texts) :
    canonical (canonical text) ∈ s.texts := by
  rw [texts_of_ofTexts h, List.mem_eraseDups]
  exact List.mem_map.2 ⟨text, hmem, rfl⟩

/-- Whatever spelling a text is the canonical text of, the set has a token for it. -/
theorem mem_texts_of_ofTexts {texts : List String} {r : Reference} {s : TokenSet}
    (h : ofTexts texts r = .ok s) {spelling : String} (hmem : canonical spelling ∈ texts) :
    canonical (canonical spelling) ∈ s.texts := by
  rw [← canonical_thrice]
  exact canonical_canonical_mem_texts h hmem

theorem resolves_of_ofTexts {texts : List String} {r : Reference} {s : TokenSet}
    (h : ofTexts texts r = .ok s) : ∀ t ∈ s.tokens, t.Resolves r := by
  obtain ⟨_, rfl⟩ := ofTexts_eq_ok_iff.1 h
  exact (Reading.collected_foldl r texts).resolves

theorem canonical_of_mem_texts {texts : List String} {r : Reference} {s : TokenSet}
    (h : ofTexts texts r = .ok s) : ∀ name ∈ s.texts, canonical name = name := by
  intro name hname
  rw [texts_of_ofTexts h, List.mem_eraseDups] at hname
  obtain ⟨text, _, rfl⟩ := List.mem_map.1 hname
  exact canonical_thrice text

/-- Whatever spelling of it has been read, a token is found under the canonical text. -/
theorem exists_get?_of_ofTexts {texts : List String} {r : Reference} {s : TokenSet}
    (h : ofTexts texts r = .ok s) {text : String} (hmem : text ∈ texts) :
    ∃ entry, s.get? (canonical text) = some entry ∧
      ofText text r = .ok ⟨canonical text, entry.token⟩ := by
  obtain ⟨entry, hfound⟩ := exists_find?_of_mem_texts (canonical_canonical_mem_texts h hmem)
  refine ⟨entry, ?_, ?_⟩
  · rw [get?_eq_find?_canonical (canonical_of_mem_texts h), hfound]
  · have htext : entry.text = canonical (canonical text) := text_of_find?_eq_some hfound
    have hresolves : entry.Resolves r :=
      resolves_of_ofTexts h entry (List.mem_of_find?_eq_some hfound)
    rw [← ofText_canonical_eq_ok_iff, ofText_eq_ok_iff, ← htext]
    exact ⟨rfl, hresolves⟩

end TokenSet

end Jukebox
