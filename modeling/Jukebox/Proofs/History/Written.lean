import Jukebox.Proofs.Calendar.Writing
import Jukebox.Proofs.History.Unordered

/-!
# Histories in the default layouts

An instant that is written in a default layout is read back as far as the layout tells it, and so is
a history of such instants in layouts of their own (`plays_of_stamps`). The default layouts are
tried in turn, so the earlier ones must not read what a later one has written. Most of them have
other marks between their numbers; where the marks are the same, a year of four digits stands in the
place of a number of two, or a day in the place of a month (`told_apart`). The latter are told apart
by days that are no month, and make no difference where the day is the month.
-/

set_option autoImplicit false
set_option relaxedAutoImplicit false

namespace Jukebox

open Calendar Text

namespace History

/-! ### Writing -/

/-- What a directive writes of an instant, in digits filled up with zeros. Directives that are in no
default layout are left as they are. -/
def directiveText (t : Instant) : Char → List Char
  | 'Y' => yearText t.year
  | 'm' => padded 2 t.month
  | 'd' => padded 2 t.date.dayOfMonth
  | 'H' => padded 2 t.hour
  | 'M' => padded 2 t.minute
  | 'S' => padded 2 t.clockSecond
  | c => ['%', c]

/-- An instant as a layout writes it. -/
def writeWith (t : Instant) : (layout : List Char) → List Char
  | '%' :: c :: rest => directiveText t c ++ writeWith t rest
  | c :: rest => c :: writeWith t rest
  | [] => []

/-- What a layout tells of an instant: all of it, its minute, or its date. -/
def cutTo (layout : String) (t : Instant) : Instant :=
  if 'S' ∈ layout.toList then t
  else if 'M' ∈ layout.toList then t.startOfMinute
  else .midnight t.date

theorem cutTo_date {layout : String} (hsecond : 'S' ∉ layout.toList) (hminute : 'M' ∉ layout.toList)
    (t : Instant) : cutTo layout t = .midnight t.date := by
  rw [cutTo, if_neg hsecond, if_neg hminute]

/-- An instant at a whole second and the default layout that it is written in. -/
structure Stamp where
  instant : Instant
  layout : String
  wholeSecond : instant.nano % 1000000000 = 0
  fourDigitYear : 0 ≤ instant.year ∧ instant.year ≤ 9999
  mem_defaultLayouts : layout ∈ defaultLayouts
  /-- A day in front of the month is no month, or it is that month. -/
  dayBeforeMonth : layout = "%d/%m/%Y" →
    12 < instant.date.dayOfMonth ∨ instant.date.dayOfMonth = instant.month

namespace Stamp

def text (s : Stamp) : List Char := writeWith s.instant s.layout.toList

/-- The instant as far as its layout tells it. -/
def told (s : Stamp) : Instant := cutTo s.layout s.instant

end Stamp

/-! ### The default layouts -/

variable {layout : String} {t : Instant}

/-- The items of a default layout. -/
def items (layout : String) : Layout := (Layout.ofChars? layout.toList).getD []

theorem readWith?_eq_instant? (h : layout ∈ defaultLayouts) (entry : List Char) :
    readWith? layout entry = (items layout).instant? entry := by
  have hall : ∀ layout ∈ defaultLayouts, (Layout.ofChars? layout.toList).isSome = true := by
    decide +kernel
  obtain ⟨layoutItems, hitems⟩ := Option.isSome_iff_exists.1 (hall layout h)
  rw [readWith?, items, hitems]
  rfl

theorem isPlain_items : ∀ layout ∈ defaultLayouts, (items layout).isPlain = true := by
  decide +kernel

theorem isTight_items : ∀ layout ∈ defaultLayouts, (items layout).isTight = true := by
  decide +kernel

/-- The characters that stand for themselves in the default layouts. -/
theorem mem_marks_of_mem_items {c : Char} (h : layout ∈ defaultLayouts)
    (hc : .literal c ∈ items layout) : c ∈ ['-', '/', ':', 'T', 'Z'] := by
  have hall : ∀ layout ∈ defaultLayouts, ((items layout).filterMap LayoutItem.literal?).all
      (['-', '/', ':', 'T', 'Z'].contains ·) = true := by
    decide +kernel
  have hcontains := List.all_eq_true.1 (hall layout h) c (List.mem_filterMap.2 ⟨_, hc, rfl⟩)
  exact List.contains_iff_mem.1 hcontains

theorem writeWith_eq_text (h : layout ∈ defaultLayouts) (t : Instant) :
    writeWith t layout.toList = (items layout).text t := by
  simp only [defaultLayouts, List.mem_cons, List.not_mem_nil, or_false] at h
  rcases h with rfl | rfl | rfl | rfl | rfl | rfl | rfl | rfl | rfl | rfl
  all_goals rfl

/-- A default layout reads back what it has written. -/
theorem instant?_text (hyear : t.HasFourDigitYear) (hwhole : t.nano % 1000000000 = 0)
    (h : layout ∈ defaultLayouts) :
    (items layout).instant? ((items layout).text t) = some (cutTo layout t) := by
  have hread := Layout.read?_text hyear (isPlain_items layout h)
  simp only [defaultLayouts, List.mem_cons, List.not_mem_nil, or_false] at h
  have hsecond := t.ofTime?_second hwhole
  have hminute := t.ofTime?_minute
  rcases h with rfl | rfl | rfl | rfl | rfl | rfl | rfl | rfl | rfl | rfl
  · exact Layout.instant?_of_read?_time hread hsecond
  · exact Layout.instant?_of_read?_time hread hsecond
  · exact Layout.instant?_of_read?_time hread hsecond
  · exact Layout.instant?_of_read?_time hread hminute
  · exact Layout.instant?_of_read?_date hread
  · exact Layout.instant?_of_read?_time hread hsecond
  · exact Layout.instant?_of_read?_date hread
  · exact Layout.instant?_of_read?_date hread
  · exact Layout.instant?_of_read?_time hread hsecond
  · exact Layout.instant?_of_read?_date hread

/-- A default layout has other marks than a later one, a number of two digits in the place of a
year, or the month in the place of the day. -/
theorem told_apart : defaultLayouts.Pairwise fun earlier later ↦
    (items earlier).marks ≠ (items later).marks ∨
      earlier ∈ ["%m/%d/%Y %H:%M:%S", "%m/%d/%Y", "%d/%m/%Y"] ∧
        later ∈ ["%Y/%m/%d %H:%M:%S", "%Y/%m/%d"] ∨
      earlier = "%m/%d/%Y" ∧ later = "%d/%m/%Y" := by
  decide +kernel

/-! ### Earlier layouts -/

/-- A layout with other marks reads nothing. -/
theorem instant?_eq_none_of_marks {cs : List Char} {layout : Layout}
    (hplain : layout.isPlain = true) (h : cs.filter isMark ≠ layout.marks) :
    layout.instant? cs = none := by
  rw [Option.eq_none_iff_forall_ne_some]
  intro t ht
  obtain ⟨p, hp⟩ := Layout.exists_of_instant? ht
  exact h (Layout.filter_isMark_of_read? hplain hp)

/-- A year is no number of two digits in front of a slash. -/
theorem instant?_yearFirst (hyear : t.HasFourDigitYear) {earlier later : String}
    (hearlier : earlier ∈ ["%m/%d/%Y %H:%M:%S", "%m/%d/%Y", "%d/%m/%Y"])
    (hlater : later ∈ ["%Y/%m/%d %H:%M:%S", "%Y/%m/%d"]) :
    (items earlier).instant? (writeWith t later.toList) = none := by
  have htext : ∃ rest, writeWith t later.toList = yearText t.year ++ rest := by
    rcases List.mem_pair.1 hlater with rfl | rfl
    · exact ⟨_, rfl⟩
    · exact ⟨_, rfl⟩
  obtain ⟨rest, htext⟩ := htext
  have hlength : (padded 4 t.year.toNat).length = 4 :=
    length_padded_of_lt (by decide) (by have := hyear.2; omega)
  have hread : ∀ part more, part.width = some 2 →
      Layout.instant? (.number part :: .literal '/' :: more) (writeWith t later.toList) = none := by
    intro part more hwidth
    rw [htext, hyear.yearText_eq]
    exact Layout.instant?_eq_none (Layout.read?_eq_none_of_digits
      (fun c ↦ isDigit_of_mem_padded) (by omega) hwidth rfl rest)
  simp only [List.mem_cons, List.not_mem_nil, or_false] at hearlier
  rcases hearlier with rfl | rfl | rfl
  · exact hread _ _ rfl
  · exact hread _ _ rfl
  · exact hread _ _ rfl

/-- A day above 12 is no month. -/
theorem instant?_dayFirst (h : 12 < t.date.dayOfMonth) :
    (items "%m/%d/%Y").instant? (writeWith t "%d/%m/%Y".toList) = none := by
  have hday := t.date.dayOfMonth_le
  have hread : ∀ rest, readPart .month (padded 2 t.date.dayOfMonth ++ rest) =
      some ((t.date.dayOfMonth : Int), rest) := readPart_padded (by decide) (by omega) rfl
  refine Layout.instant?_eq_none (Layout.read?_eq_none_of_set (hread _) ?_)
  have hwithin : within 1 12 (t.date.dayOfMonth : Int) = none := if_neg (by omega)
  simp only [Parts.set, hwithin, Option.bind_eq_bind, Option.bind_none]

/-- A day and month that are the same may change places. -/
theorem writeWith_dayFirst (h : t.date.dayOfMonth = t.month) :
    writeWith t "%d/%m/%Y".toList = writeWith t "%m/%d/%Y".toList := by
  have hdayFirst : writeWith t "%d/%m/%Y".toList =
    padded 2 t.date.dayOfMonth ++ '/' :: (padded 2 t.month ++ '/' :: (yearText t.year ++ [])) := rfl
  have hmonthFirst : writeWith t "%m/%d/%Y".toList =
    padded 2 t.month ++ '/' :: (padded 2 t.date.dayOfMonth ++ '/' :: (yearText t.year ++ [])) := rfl
  rw [hdayFirst, hmonthFirst, h]

/-- The default layouts make of a text that one of them has written what that one tells. -/
theorem findSome?_text (hyear : t.HasFourDigitYear) (hwhole : t.nano % 1000000000 = 0)
    (h : layout ∈ defaultLayouts) (hday : layout = "%d/%m/%Y" → 12 < t.date.dayOfMonth) :
    (defaultLayouts.findSome? fun l ↦ readWith? l (writeWith t layout.toList)) =
      some (cutTo layout t) := by
  obtain ⟨before, after, hsplit⟩ := List.append_of_mem h
  rw [List.findSome?_eq_some_iff]
  -- Later layouts may well read the text; they are not tried.
  refine ⟨before, layout, after, hsplit, ?_, fun earlier hearlier ↦ ?_⟩
  · rw [readWith?_eq_instant? h, writeWith_eq_text h, instant?_text hyear hwhole h]
  · have hmem : earlier ∈ defaultLayouts := hsplit ▸ List.mem_append_left _ hearlier
    have hapart := (List.pairwise_append.1 (hsplit ▸ told_apart)).2.2 earlier hearlier layout
      List.mem_cons_self
    rw [readWith?_eq_instant? hmem]
    rcases hapart with hmarks | ⟨hearlier, hlater⟩ | ⟨rfl, rfl⟩
    · refine instant?_eq_none_of_marks (isPlain_items earlier hmem) ?_
      rw [writeWith_eq_text h, Layout.filter_isMark_text hyear (isPlain_items layout h)]
      exact hmarks.symm
    · exact instant?_yearFirst hyear hearlier hlater
    · exact instant?_dayFirst (hday rfl)

/-! ### Stamps -/

namespace Stamp

/-- Where no layout is configured, a stamp is read as far as its layout tells it. -/
theorem timestamp?_text {f : Format} (hf : f.layout = "") (s : Stamp) :
    f.timestamp? s.text = some s.told := by
  rw [Format.timestamp?, if_pos hf]
  refine (Option.orElse_eq_some _ _ _).2 (.inl ?_)
  by_cases hlayout : s.layout = "%d/%m/%Y"
  · rcases s.dayBeforeMonth hlayout with hday | hsame
    · exact findSome?_text s.fourDigitYear s.wholeSecond s.mem_defaultLayouts fun _ ↦ hday
    · have htext : s.text = writeWith s.instant "%m/%d/%Y".toList := by
        rw [text, hlayout, writeWith_dayFirst hsame]
      have htold : s.told = cutTo "%m/%d/%Y" s.instant := by
        rw [told, hlayout, cutTo_date (by decide +kernel) (by decide +kernel),
          cutTo_date (by decide +kernel) (by decide +kernel)]
      rw [htext, htold]
      exact findSome?_text s.fourDigitYear s.wholeSecond (by decide) fun h ↦ absurd h (by decide)
  · exact findSome?_text s.fourDigitYear s.wholeSecond s.mem_defaultLayouts
      fun h ↦ absurd h hlayout

theorem text_eq (s : Stamp) : s.text = (items s.layout).text s.instant :=
  writeWith_eq_text s.mem_defaultLayouts s.instant

theorem trimChars_text (s : Stamp) : trimChars s.text = s.text := by
  rw [text_eq, Layout.trimChars_text s.fourDigitYear (isTight_items s.layout s.mem_defaultLayouts)]

theorem text_ne_nil (s : Stamp) : s.text ≠ [] := by
  rw [text_eq]
  exact Layout.text_ne_nil s.fourDigitYear (isTight_items s.layout s.mem_defaultLayouts)

theorem not_mem_text (s : Stamp) {c : Char} (hdigit : c.isDigit = false)
    (hblank : isBlank c = false) (hmark : c ∉ ['-', '/', ':', 'T', 'Z']) : c ∉ s.text := by
  intro hmem
  rw [text_eq] at hmem
  rcases Layout.mem_text s.fourDigitYear hmem with h | rfl | h
  · rw [h] at hdigit
    cases hdigit
  · cases hblank
  · exact hmark (mem_marks_of_mem_items s.mem_defaultLayouts h)

end Stamp

/-- Texts that do without the separator and without blanks at their ends are the entries of the
history in which they are joined. -/
theorem Format.entries_intercalate {f : Format} {separator : Char} {texts : List (List Char)}
    (hf : f.separator = String.singleton separator)
    (htexts : ∀ text ∈ texts, separator ∉ text ∧ trimChars text = text ∧ text ≠ []) :
    f.entries (String.ofList ([separator].intercalate texts)) = texts := by
  have hseparator : f.separator.toList = [separator] := by rw [hf, String.toList_singleton]
  rw [entries, hseparator, String.toList_ofList]
  by_cases hnil : texts = []
  · subst hnil
    rfl
  · rw [splitText_intercalate (fun text htext ↦ (htexts text htext).1) hnil,
      List.map_congr_left fun text htext ↦ (htexts text htext).2.1, List.map_id']
    exact List.filter_eq_self.2 fun text htext ↦ decide_eq_true (htexts text htext).2.2

/-- A history of timestamps has these for plays, where no layout is configured and plays are left
where they are. -/
theorem Format.plays_of_timestamps {f : Format} {raw : String} {instants : List Instant}
    (hlayout : f.layout = "") (hoffset : f.midnightOffset = 0)
    (h : List.Forall₂ (fun entry t ↦ f.timestamp? entry = some t) (f.entries raw) instants)
    (file : FileName) : f.plays file raw = .ok (Instant.ascending instants) := by
  have hmoved : f.MovedBack instants instants := by
    rw [MovedBack, List.forall₂_same, hoffset]
    exact fun t _ ↦ t.plus_zero
  cases hentries : f.entries raw with
  | nil =>
    rw [hentries, List.forall₂_nil_left_iff] at h
    rw [Format.plays, hentries, h, Instant.ascending, List.mergeSort_nil]
  | cons first rest =>
    have hreader : f.reader first = f.timestamp? := by
      rw [hentries] at h
      cases h with
      | cons hfirst _ =>
        rw [reader, serial?_eq_none_of_timestamp? hlayout hfirst, Option.isSome_none,
          if_neg Bool.false_ne_true]
    exact ((plays_iff_of_read hentries (hreader ▸ h)).1 _).2
      ⟨_, hmoved, Instant.ascending_perm _, Instant.pairwise_ascending _⟩

end History

open History

/-- Instants at whole seconds, each written in a default layout of its own and joined with a
separator that no layout writes, are the plays of that history as far as their layouts tell them. -/
theorem plays_of_stamps {separator : Char} (hdigit : separator.isDigit = false)
    (hblank : isBlank separator = false) (hmark : separator ∉ ['-', '/', ':', 'T', 'Z'])
    (stamps : List Stamp) (file : FileName) :
    ∃ plays, (⟨String.singleton separator, "", 0⟩ : History.Format).plays file
        (String.ofList ([separator].intercalate (stamps.map Stamp.text))) = .ok plays ∧
      plays.Perm (stamps.map Stamp.told) ∧ plays.Pairwise (· ≤ ·) := by
  refine ⟨Instant.ascending (stamps.map Stamp.told), ?_, Instant.ascending_perm _,
    Instant.pairwise_ascending _⟩
  refine Format.plays_of_timestamps rfl rfl ?_ file
  rw [Format.entries_intercalate rfl (List.forall_mem_map.2 fun s _ ↦
      ⟨s.not_mem_text hdigit hblank hmark, s.trimChars_text, s.text_ne_nil⟩),
    List.forall₂_map_left_iff, List.forall₂_map_right_iff, List.forall₂_same]
  exact fun s _ ↦ s.timestamp?_text rfl

/-- A leap second, a day in front of its month and a minute, the latest of them first. -/
theorem plays_of_stamps_three_layouts :
    let newYearsEve : Date := ⟨yearStart 2017 - 1, by decide⟩
    let day : Date := ⟨yearStart 987 + 12, by decide⟩
    let leapSecond : Instant := ⟨newYearsEve, 86399, 1000000000, by decide, by decide, by decide⟩
    let minute : Instant := ⟨day, 30300, 0, by decide, by decide, by decide⟩
    '|'.isDigit = false ∧ isBlank '|' = false ∧ '|' ∉ ['-', '/', ':', 'T', 'Z'] ∧
      (⟨"|", "", 0⟩ : History.Format).plays ⟨1, "a"⟩
        "12/31/2016 23:59:60|0987-01-13 08:25|13/01/0987" =
          .ok [.midnight day, minute, leapSecond] := by
  intro newYearsEve day leapSecond minute
  let morning : Instant := ⟨day, 30330, 0, by decide, by decide, by decide⟩
  let stamps : List Stamp :=
    [⟨leapSecond, "%m/%d/%Y %H:%M:%S", by decide, by decide +kernel, by decide, by decide⟩,
      ⟨morning, "%Y-%m-%d %H:%M", by decide, by decide +kernel, by decide, by decide⟩,
      ⟨morning, "%d/%m/%Y", by decide, by decide +kernel, by decide,
        fun _ ↦ .inl (by decide +kernel)⟩]
  have htext : String.ofList (['|'].intercalate (stamps.map Stamp.text)) =
      "12/31/2016 23:59:60|0987-01-13 08:25|13/01/0987" := by
    decide +kernel
  have htold : (stamps.map Stamp.told).reverse = [.midnight day, minute, leapSecond] := by
    decide +kernel
  have hdigit : '|'.isDigit = false := by decide
  have hblank : isBlank '|' = false := by decide
  have hmark : '|' ∉ ['-', '/', ':', 'T', 'Z'] := by decide
  obtain ⟨plays, hplays, hperm, hsorted⟩ :=
    plays_of_stamps hdigit hblank hmark stamps ⟨1, "a"⟩
  have hsame : plays = [.midnight day, minute, leapSecond] := by
    rw [← Instant.ascending_eq_iff.2 ⟨hperm, hsorted⟩, Instant.ascending_eq_iff, ← htold]
    exact ⟨List.reverse_perm _, by rw [htold]; decide +kernel⟩
  rw [htext, hsame] at hplays
  exact ⟨hdigit, hblank, hmark, hplays⟩

end Jukebox
