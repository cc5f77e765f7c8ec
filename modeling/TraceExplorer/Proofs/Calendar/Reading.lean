import TraceExplorer.Number.Numeral
import TraceExplorer.Proofs.Calendar.Gregorian
import TraceExplorer.Proofs.Success

/-!
# Reading stamps

A stamp says which millisecond it stands for: its date and its time less its offset, counted on the
Gregorian calendar, are the milliseconds since the start of 1970. So two moments have one stamp
exactly if they fall into one millisecond.
-/

namespace TraceExplorer.Calendar

open Number (isAsciiDigit natOfDigits)

/-! ## Reading -/

def readNumber? (digits : List Char) : Option Int :=
  if digits ≠ [] ∧ digits.all isAsciiDigit then some (natOfDigits digits) else none

def readSeconds? : List Char → Option Int
  | [] => some 0
  | [s, s'] => readNumber? [s, s']
  | _ => none

/-- The offset at the end of a stamp, in seconds. -/
def readOffset? : List Char → Option Int
  | sign :: h :: h' :: m :: m' :: rest => do
    let hours ← readNumber? [h, h']
    let minutes ← readNumber? [m, m']
    let seconds ← readSeconds? rest
    let distance := hours * 3600 + minutes * 60 + seconds
    if sign = '+' then some distance else if sign = '-' then some (-distance) else none
  | _ => none

/-- A time of a clock on a day of the years 1 to 9999. -/
structure CivilTime.IsOnClock (t : CivilTime) : Prop where
  date : t.date.IsOnCalendar
  year_pos : 1 ≤ t.date.year
  year_le : t.date.year ≤ 9999
  hour_nonneg : 0 ≤ t.hour
  hour_lt : t.hour < 24
  minute_nonneg : 0 ≤ t.minute
  minute_lt : t.minute < 60
  second_nonneg : 0 ≤ t.second
  second_lt : t.second < 60

instance (t : CivilTime) : Decidable t.IsOnClock :=
  decidable_of_iff (t.date.IsOnCalendar ∧ 1 ≤ t.date.year ∧ t.date.year ≤ 9999 ∧ 0 ≤ t.hour ∧
      t.hour < 24 ∧ 0 ≤ t.minute ∧ t.minute < 60 ∧ 0 ≤ t.second ∧ t.second < 60)
    ⟨fun ⟨a, b, c, d, e, f, g, h, i⟩ => ⟨a, b, c, d, e, f, g, h, i⟩,
      fun ⟨a, b, c, d, e, f, g, h, i⟩ => ⟨a, b, c, d, e, f, g, h, i⟩⟩

/-- The seconds from the start of 1970 to a time of the same clock. -/
def CivilTime.secondNumber (t : CivilTime) : Int :=
  t.date.dayNumber * 86400 + t.hour * 3600 + t.minute * 60 + t.second

/-- The milliseconds since the start of 1970 for which a stamp stands: month, day and year, hours,
minutes, seconds and milliseconds, and the offset, which is taken off. -/
def readStamp? (text : String) : Option Int :=
  match text.toList with
  | m :: m' :: '-' :: d :: d' :: '-' :: rest =>
    match rest.dropWhile isAsciiDigit with
    | 'T' :: h :: h' :: ':' :: n :: n' :: ':' :: s :: s' :: '.' :: f :: f' :: f'' :: zone => do
      let year ← readNumber? (rest.takeWhile isAsciiDigit)
      let month ← readNumber? [m, m']
      let day ← readNumber? [d, d']
      let hour ← readNumber? [h, h']
      let minute ← readNumber? [n, n']
      let second ← readNumber? [s, s']
      let milliseconds ← readNumber? [f, f', f'']
      let offset ← readOffset? zone
      let t : CivilTime := ⟨⟨year, month, day⟩, hour, minute, second⟩
      if t.IsOnClock then some ((t.secondNumber - offset) * 1000 + milliseconds) else none
    | _ => none
  | _ => none

section

variable {n : Int} {o : Offset} {t : CivilTime}

/-! ## Numbers -/

structure Writes (digits : List Char) (n : Int) : Prop where
  digit : ∀ c ∈ digits, isAsciiDigit c
  read : readNumber? digits = some n

theorem natOfDigits_zeros (k : Nat) (digits : List Char) :
    natOfDigits (List.replicate k '0' ++ digits) = natOfDigits digits := by
  induction k with
  | zero => rfl
  | succ k ih => exact ih

theorem writes_padZeros (width : Nat) (h : 0 ≤ n) : Writes (padZeros width n).toList n := by
  have hdigit : ∀ c ∈ (padZeros width n).toList, isAsciiDigit c := by
    intro c hc
    rw [padZeros, String.toList_ofList, List.mem_append] at hc
    rcases hc with hzero | hdigit
    · rw [List.eq_of_mem_replicate hzero]
      rfl
    · exact Nat.isDigit_of_mem_toDigits (by norm_num) le_rfl hdigit
  have hsome : (padZeros width n).toList ≠ [] := by
    rw [padZeros, String.toList_ofList]
    exact List.append_ne_nil_of_right_ne_nil _ Nat.toDigits_ne_nil
  have hvalue : natOfDigits (Nat.toDigits 10 n.natAbs) = n.natAbs := Nat.ofDigitChars_ten_toDigits
  refine ⟨hdigit, ?_⟩
  rw [readNumber?, if_pos ⟨hsome, List.all_eq_true.mpr hdigit⟩, padZeros, String.toList_ofList,
    natOfDigits_zeros, hvalue, Int.natAbs_of_nonneg h]

theorem length_padZeros (width : Nat) (h0 : 0 ≤ n) (h : n < 10 ^ width) (hwidth : 0 < width) :
    (padZeros width n).toList.length = width := by
  have hlength : (Nat.toDigits 10 n.natAbs).length ≤ width := by
    rw [Nat.length_toDigits_le_iff (by norm_num) hwidth]
    zify
    rwa [abs_of_nonneg h0]
  rw [padZeros, String.toList_ofList, List.length_append, List.length_replicate]
  omega

theorem exists_two_digits (h0 : 0 ≤ n) (h : n < 100) :
    ∃ c c', (padZeros 2 n).toList = [c, c'] ∧ readNumber? [c, c'] = some n := by
  obtain ⟨c, c', hcs⟩ := List.length_eq_two.mp (length_padZeros 2 h0 h (by norm_num))
  exact ⟨c, c', hcs, hcs ▸ (writes_padZeros 2 h0).read⟩

theorem exists_three_digits (h0 : 0 ≤ n) (h : n < 1000) :
    ∃ c c' c'', (padZeros 3 n).toList = [c, c', c''] ∧ readNumber? [c, c', c''] = some n := by
  obtain ⟨c, c', c'', hcs⟩ :=
    List.length_eq_three.mp (length_padZeros 3 h0 h (by norm_num))
  exact ⟨c, c', c'', hcs, hcs ▸ (writes_padZeros 3 h0).read⟩

/-! ## Offsets -/

/-- The hours of an offset have two digits. -/
def Offset.IsShort (o : Offset) : Prop := o.seconds.natAbs < 360000

theorem readSeconds?_text (h0 : 0 ≤ n) (h : n < 60) :
    readSeconds? (if n = 0 then "" else padZeros 2 n).toList = some n := by
  split
  · next hzero => exact congrArg some hzero.symm
  · obtain ⟨c, c', hseconds, hseconds'⟩ := exists_two_digits h0 (by omega)
    rw [hseconds]
    exact hseconds'

theorem readOffset?_text (h : o.IsShort) : readOffset? o.text.toList = some o.seconds := by
  have hdistance : o.seconds.natAbs < 360000 := h
  obtain ⟨c, c', hhours, hhours'⟩ := exists_two_digits (n := o.seconds.natAbs / 3600)
    (by omega) (by omega)
  obtain ⟨d, d', hminutes, hminutes'⟩ := exists_two_digits (n := o.seconds.natAbs / 60 % 60)
    (by omega) (by omega)
  have hseconds : readSeconds? _ = some (o.seconds.natAbs % 60 : Int) :=
    readSeconds?_text (by omega) (by omega)
  have htext : o.text.toList = (if o.seconds < 0 then '-' else '+') :: c :: c' :: d :: d' ::
      (if (o.seconds.natAbs : Int) % 60 = 0 then ""
        else padZeros 2 (o.seconds.natAbs % 60)).toList := by
    rw [Offset.text]
    simp only [String.toList_append, hhours, hminutes]
    split <;> rfl
  rw [htext]
  rcases lt_or_ge o.seconds 0 with hneg | hnonneg
  · rw [if_pos hneg]
    simp only [readOffset?, hhours', hminutes', hseconds, Option.bind_eq_bind, Option.bind_some,
      Char.reduceEq, reduceIte]
    exact congrArg some (by omega)
  · rw [if_neg (not_lt.mpr hnonneg)]
    simp only [readOffset?, hhours', hminutes', hseconds, Option.bind_eq_bind, Option.bind_some,
      reduceIte]
    exact congrArg some (by omega)

/-! ## Stamps -/

theorem isWritable_iff {seconds : Int} :
    isWritable seconds ↔ firstSecond ≤ seconds ∧ seconds < endSecond := by
  simp [isWritable]

theorem secondNumber_ofSeconds {seconds : Int} (h : isWritable seconds) :
    (CivilTime.ofSeconds seconds).IsOnClock ∧
      (CivilTime.ofSeconds seconds).secondNumber = seconds := by
  obtain ⟨hlow, hhigh⟩ := isWritable_iff.mp h
  rw [firstSecond] at hlow
  rw [endSecond] at hhigh
  have hfirst : -719162 ≤ seconds / 86400 := by omega
  have hlast : seconds / 86400 < 2932897 := by omega
  have hyear := CivilDate.year_ofDays hfirst hlast
  have hday := CivilDate.dayNumber_ofDays hfirst hlast
  constructor
  · constructor <;> dsimp only [CivilTime.ofSeconds]
    case date => exact CivilDate.isOnCalendar_ofDays _
    all_goals omega
  · rw [CivilTime.secondNumber, CivilTime.ofSeconds, hday]
    dsimp only
    omega

theorem readStamp?_stampText {milliseconds : Int} (ht : t.IsOnClock) (h0 : 0 ≤ milliseconds)
    (h1 : milliseconds < 1000) (ho : o.IsShort) :
    readStamp? (stampText t milliseconds o) =
      some ((t.secondNumber - o.seconds) * 1000 + milliseconds) := by
  have hdate := ht.date
  have hlength : monthLength t.date.year t.date.month ≤ 31 := by
    rw [monthLength]
    split_ifs <;> decide
  obtain ⟨m, m', hmonth, hmonth'⟩ := exists_two_digits (n := t.date.month)
    (by linarith [hdate.month_pos]) (by linarith [hdate.month_le])
  obtain ⟨d, d', hday, hday'⟩ := exists_two_digits (n := t.date.day)
    (by linarith [hdate.day_pos]) (by linarith [hdate.day_le])
  obtain ⟨h, h', hhour, hhour'⟩ := exists_two_digits ht.hour_nonneg (by linarith [ht.hour_lt])
  obtain ⟨n, n', hminute, hminute'⟩ :=
    exists_two_digits ht.minute_nonneg (by linarith [ht.minute_lt])
  obtain ⟨s, s', hsecond, hsecond'⟩ :=
    exists_two_digits ht.second_nonneg (by linarith [ht.second_lt])
  obtain ⟨f, f', f'', hmilli, hmilli'⟩ := exists_three_digits h0 h1
  have hyear : Writes (padZeros 1 t.date.year).toList t.date.year :=
    writes_padZeros 1 (by linarith [ht.year_pos])
  have htext : (stampText t milliseconds o).toList =
      m :: m' :: '-' :: d :: d' :: '-' :: ((padZeros 1 t.date.year).toList ++
        'T' :: h :: h' :: ':' :: n :: n' :: ':' :: s :: s' :: '.' :: f :: f' :: f'' ::
          o.text.toList) := by
    simp only [stampText, String.toList_append, hmonth, hday, hhour, hminute, hsecond, hmilli]
    simp
  rw [readStamp?, htext]
  simp only [List.dropWhile_append_of_pos hyear.digit, List.takeWhile_append_of_pos hyear.digit]
  rw [List.dropWhile_cons_of_neg (by decide), List.takeWhile_cons_of_neg (by decide)]
  simp only [List.append_nil, hyear.read, hmonth', hday', hhour', hminute', hsecond', hmilli',
    readOffset?_text ho, Option.bind_eq_bind, Option.bind_some]
  exact if_pos ht

theorem of_checkMoment {seconds : Int} {isLocal : Bool}
    (h : checkMoment seconds o isLocal = .ok ()) :
    isWritable (seconds + o.seconds) ∧ (isLocal → o.isUsual) := by
  rw [checkMoment] at h
  split_ifs at h with _ _ hwall hlocal _ husual _
  · exact ⟨by simpa using hwall, fun hl => by simp [hl] at hlocal⟩
  · exact ⟨by simpa using hwall, fun _ => by simpa using husual⟩

def shownOffset (utc : Bool) (offset : Offset) : Offset := if utc then .utc else offset

/-! ## Moments -/

section

variable {microseconds other : Int} {utc : Bool} {offset : Offset} {text text' : String}

/-- What a moment has if it has a stamp. -/
theorem of_stampAt (h : stampAt microseconds utc offset = .ok text) :
    let o := shownOffset utc offset
    isWritable (microseconds / 1000000 + o.seconds) ∧ o.IsShort ∧
      text = stampText (.ofSeconds (microseconds / 1000000 + o.seconds))
        (microseconds % 1000000 / 1000) o := by
  obtain ⟨⟨⟩, hcheck, htext⟩ := bind_eq_ok_iff.mp h
  obtain ⟨hwall, husual⟩ := of_checkMoment hcheck
  refine ⟨hwall, ?_, (Except.ok.inj htext).symm⟩
  cases utc with
  | true =>
    show (0 : Int).natAbs < 360000
    decide
  | false =>
    have hday : -86400 < offset.seconds ∧ offset.seconds < 86400 := by
      simpa [Offset.isUsual] using husual rfl
    show offset.seconds.natAbs < 360000
    omega

theorem readStamp?_of_stampAt (h : stampAt microseconds utc offset = .ok text) :
    readStamp? text = some (microseconds / 1000) := by
  obtain ⟨hwall, hshort, rfl⟩ := of_stampAt h
  obtain ⟨hclock, hseconds⟩ := secondNumber_ofSeconds hwall
  rw [readStamp?_stampText hclock (by omega) (by omega) hshort, hseconds]
  exact congrArg some (by omega)

/-- Moments with the same stamp fall into one millisecond, by whatever clocks they are shown. -/
theorem millisecond_unique {offset' : Offset} (h : stampAt microseconds utc offset = .ok text)
    (h' : stampAt other utc offset' = .ok text) : microseconds / 1000 = other / 1000 :=
  Option.some.inj ((readStamp?_of_stampAt h).symm.trans (readStamp?_of_stampAt h'))

theorem stamp_eq_iff (h : stampAt microseconds utc offset = .ok text)
    (h' : stampAt other utc offset = .ok text') :
    text = text' ↔ microseconds / 1000 = other / 1000 := by
  constructor
  · rintro rfl
    exact millisecond_unique h h'
  · intro heq
    obtain ⟨-, -, rfl⟩ := of_stampAt h
    obtain ⟨-, -, rfl⟩ := of_stampAt h'
    have hseconds : microseconds / 1000000 = other / 1000000 := by omega
    have hmilliseconds : microseconds % 1000000 / 1000 = other % 1000000 / 1000 := by omega
    rw [hseconds, hmilliseconds]

/-- A stamp stands for its millisecond in every zone, also where clocks are put back and show one
wall time twice. -/
theorem formatStamp_eq_iff {zone : Zone} (h : formatStamp microseconds utc zone = .ok text)
    (h' : formatStamp other utc zone = .ok text') :
    text = text' ↔ microseconds / 1000 = other / 1000 := by
  constructor
  · rintro rfl
    exact millisecond_unique h h'
  · intro heq
    have hseconds : microseconds / 1000000 = other / 1000000 := by omega
    rw [formatStamp, ← hseconds] at h'
    exact (stamp_eq_iff h h').mpr heq

/-- The system clock can hold all moments of the years 1 to 9999. -/
theorem fits_of_isWritable {seconds : Int} (h : isWritable seconds) :
    fitsClock seconds ∧ yearFits seconds := by
  obtain ⟨hlow, hhigh⟩ := isWritable_iff.mp h
  rw [firstSecond] at hlow
  rw [endSecond] at hhigh
  constructor
  · exact Bool.and_eq_true_iff.mpr
      ⟨decide_eq_true (by rw [clockEnd]; omega), decide_eq_true (by rw [clockEnd]; omega)⟩
  · exact Bool.and_eq_true_iff.mpr ⟨decide_eq_true (by omega), decide_eq_true (by omega)⟩

/-- In UTC every moment of the years 1 to 9999 has a stamp, and no other. -/
theorem exists_stampAt_utc_iff (microseconds : Int) (offset : Offset) :
    (∃ text, stampAt microseconds true offset = .ok text) ↔
      isWritable (microseconds / 1000000) := by
  constructor
  · rintro ⟨text, h⟩
    have hwall := (of_stampAt h).1
    rwa [shownOffset, if_pos rfl, Offset.utc, add_zero] at hwall
  · intro h
    obtain ⟨hclock, hyear⟩ := fits_of_isWritable h
    have hcheck : checkMoment (microseconds / 1000000) .utc false = .ok () := by
      simp only [checkMoment, Offset.utc, add_zero, hclock, hyear, h]
      rfl
    exact ⟨_, bind_eq_ok_iff.mpr ⟨(), hcheck, rfl⟩⟩

/-- A local clock shows all moments that are two days or more from the ends of the years. -/
theorem exists_stampAt_local (husual : offset.isUsual)
    (h0 : firstSecond + 172800 ≤ microseconds / 1000000)
    (h1 : microseconds / 1000000 < endSecond - 172800) :
    ∃ text, stampAt microseconds false offset = .ok text := by
  have hday : -86400 < offset.seconds ∧ offset.seconds < 86400 := by
    simpa [Offset.isUsual] using husual
  have hmoment : isWritable (microseconds / 1000000) := isWritable_iff.mpr (by omega)
  have hwall : isWritable (microseconds / 1000000 + offset.seconds) :=
    isWritable_iff.mpr (by omega)
  have hbefore : isWritable (microseconds / 1000000 + offset.seconds - 86400) :=
    isWritable_iff.mpr (by omega)
  have hagain : isWritable (microseconds / 1000000 + offset.seconds + offset.seconds) :=
    isWritable_iff.mpr (by omega)
  obtain ⟨hclock, hyear⟩ := fits_of_isWritable hmoment
  obtain ⟨-, hyear'⟩ := fits_of_isWritable hwall
  have hcheck : checkMoment (microseconds / 1000000) offset true = .ok () := by
    simp only [checkMoment, hclock, hyear, hyear', hmoment, hwall, hbefore, hagain, husual]
    rfl
  exact ⟨_, bind_eq_ok_iff.mpr ⟨(), hcheck, rfl⟩⟩

end

/-- In UTC the moments of the years 1 to 9999 have stamps, and by a local clock at least those that
are two days from the ends of these years. A stamp stands for the millisecond of its moment, so the
moments of one clock that have one stamp are those of one millisecond. -/
theorem stampAt_reads_back (offset : Offset) :
    (∀ microseconds, (∃ text, stampAt microseconds true offset = .ok text) ↔
      isWritable (microseconds / 1000000)) ∧
    (∀ microseconds, offset.isUsual → firstSecond + 172800 ≤ microseconds / 1000000 →
      microseconds / 1000000 < endSecond - 172800 →
      ∃ text, stampAt microseconds false offset = .ok text) ∧
    ∀ microseconds utc text, stampAt microseconds utc offset = .ok text →
      readStamp? text = some (microseconds / 1000) ∧
      ∀ other text', stampAt other utc offset = .ok text' →
        (text = text' ↔ microseconds / 1000 = other / 1000) :=
  ⟨fun microseconds => exists_stampAt_utc_iff microseconds offset,
    fun _ => exists_stampAt_local,
    fun _ _ _ h => ⟨readStamp?_of_stampAt h, fun _ _ => stamp_eq_iff h⟩⟩

/-- The last millisecond before 1970 and the one before it, by a clock five and a half hours behind
UTC. -/
theorem stampAt_reads_back_of_behind :
    Offset.isUsual ⟨-19800⟩ ∧ (∃ text, stampAt (-1) false ⟨-19800⟩ = .ok text) ∧
      stampAt (-1) false ⟨-19800⟩ = .ok "12-31-1969T18:29:59.999-0530" ∧
      stampAt (-1001) false ⟨-19800⟩ = .ok "12-31-1969T18:29:59.998-0530" ∧
      readStamp? "12-31-1969T18:29:59.999-0530" = some (-1) ∧
      ("12-31-1969T18:29:59.999-0530" = "12-31-1969T18:29:59.998-0530" ↔
        (-1 : Int) / 1000 = -1001 / 1000) := by
  have h : stampAt (-1) false ⟨-19800⟩ = .ok "12-31-1969T18:29:59.999-0530" := by
    decide +kernel
  have h' : stampAt (-1001) false ⟨-19800⟩ = .ok "12-31-1969T18:29:59.998-0530" := by
    decide +kernel
  obtain ⟨-, hshown, hreads⟩ := stampAt_reads_back ⟨-19800⟩
  obtain ⟨hread, hsame⟩ := hreads _ _ _ h
  exact ⟨by decide, hshown (-1) (by decide) (by decide) (by decide), h, h', hread, hsame _ _ h'⟩

end

end TraceExplorer.Calendar
