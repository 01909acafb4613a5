import Mathlib.Algebra.Order.BigOperators.Group.List
import Mathlib.Algebra.Order.Group.Int
import Mathlib.Order.Monotone.Basic
import Mathlib.Tactic.Ring

/-! The civil calendar in which a time, in milliseconds since 1970, is read in UTC. -/
namespace RatifyOs.Data.Calendar

/-- The days from 1 January 1970 to 1 January of a year. -/
def dayFromYear (year : ℤ) : ℤ := 365 * (year - 1970) + (year - 1969) / 4 - (year - 1901) / 100 + (year - 1601) / 400

/-- The year of a day: the mean year is off by one at most. -/
def yearOf (day : ℤ) : ℤ :=
  let year := 1970 + day * 400 / 146097
  if day < dayFromYear year then year - 1
  else if dayFromYear (year + 1) ≤ day then year + 1
  else year

theorem yearOf_spec (day : ℤ) : dayFromYear (yearOf day) ≤ day ∧ day < dayFromYear (yearOf day + 1) := by
  unfold yearOf
  dsimp only
  have mean : 146097 * (day * 400 / 146097) ≤ day * 400 ∧ day * 400 < 146097 * (day * 400 / 146097) + 146097 := by omega
  generalize day * 400 / 146097 = years at mean ⊢
  split_ifs with early late
  · rw [sub_add_cancel]
    refine ⟨?_,early⟩
    unfold dayFromYear
    omega
  · refine ⟨late,?_⟩
    unfold dayFromYear
    omega
  · exact ⟨by omega,by omega⟩

/-- The lengths of the months of a year with so many days. -/
def months (days : ℤ) : List ℤ := [31,days - 337,31,30,31,30,31,31,30,31,30,31]

/-- The month, from 1, and the day of the month, from 1, of a day counted from 0. -/
def monthOf : List ℤ → ℤ → ℕ → ℕ × ℤ
  | [], day, month => (month,day + 1)
  | length :: rest, day, month => if day < length then (month,day + 1) else monthOf rest (day - length) (month + 1)

structure Date where
  minutes : ℤ
  hours : ℤ
  date : ℤ
  month : ℤ
  day : ℤ
  deriving DecidableEq

/-- `getUTCMinutes`, `getUTCHours`, `getUTCDate`, `getUTCMonth` from 1, and `getUTCDay`; a
time out of the range of `Date` has none of them. -/
def Date.of (t : ℤ) : Option Date :=
  if t < -8640000000000000 ∨ 8640000000000000 < t then none
  else
    let day := t / 86400000
    let year := yearOf day
    let at_ := monthOf (months (dayFromYear (year + 1) - dayFromYear year)) (day - dayFromYear year) 1
    some ⟨t / 60000 % 60,t / 3600000 % 24,at_.2,at_.1,(day + 4) % 7⟩

example : Date.of 1709164800000 = some ⟨0,0,29,2,4⟩ := by decide +kernel

/-- A year with a 29 February. -/
def Leap (year : ℤ) : Prop := 4 ∣ year ∧ (100 ∣ year → 400 ∣ year)

instance (year : ℤ) : Decidable (Leap year) := inferInstanceAs (Decidable (4 ∣ year ∧ (100 ∣ year → 400 ∣ year)))

def yearDays (year : ℤ) : ℤ := if Leap year then 366 else 365

theorem dayFromYear_succ (year : ℤ) : dayFromYear (year + 1) = dayFromYear year + yearDays year := by
  unfold yearDays
  split_ifs with leap
  · unfold Leap at leap
    unfold dayFromYear
    omega
  · unfold Leap at leap
    unfold dayFromYear
    omega

theorem dayFromYear_lt {year year' : ℤ} : dayFromYear year < dayFromYear year' ↔ year < year' := by
  have grows : StrictMono dayFromYear := by
    apply strictMono_int_of_lt_succ
    intro year
    rw [dayFromYear_succ]
    unfold yearDays
    split <;> omega
  exact grows.lt_iff_lt

theorem dayFromYear_le {year year' : ℤ} : dayFromYear year ≤ dayFromYear year' ↔ year ≤ year' := by
  rw [← not_lt,dayFromYear_lt,not_lt]

theorem yearOf_eq {year day : ℤ} (begun : dayFromYear year ≤ day) (ends : day < dayFromYear (year + 1)) : yearOf day = year := by
  obtain ⟨begun',ends'⟩ := yearOf_spec day
  have before := dayFromYear_lt.mp (begun'.trans_lt ends)
  have after := dayFromYear_lt.mp (begun.trans_lt ends')
  omega

theorem leap_within (year : ℤ) : ∃ y, year < y ∧ y ≤ year + 8 ∧ Leap y := by
  unfold Leap
  by_cases century : 100 ∣ year - year % 4 + 4
  · exact ⟨year - year % 4 + 8,by omega,by omega,by omega,by omega⟩
  · exact ⟨year - year % 4 + 4,by omega,by omega,by omega,by omega⟩

theorem eight_years (year : ℤ) : dayFromYear (year + 8) ≤ dayFromYear year + 2922 := by
  unfold dayFromYear
  omega

/-- The day with this date, from 1, of this month, from 0, of a year. -/
def Falls (day year : ℤ) (month : ℕ) (date : ℤ) : Prop :=
  ∃ length, (months (yearDays year))[month]? = some length ∧ 1 ≤ date ∧ date ≤ length ∧
    day = dayFromYear year + ((months (yearDays year)).take month).sum + (date - 1)

theorem months_sum (days : ℤ) : (months days).sum = days := by
  unfold months
  simp only [List.sum_cons,List.sum_nil]
  ring

theorem months_long (year : ℤ) : ∀ length ∈ months (yearDays year), 28 ≤ length := by
  unfold months yearDays
  split_ifs <;> decide

section
variable {lengths : List ℤ} {length : ℤ} {index : ℕ}

theorem take_nonneg (long : ∀ length ∈ lengths, 28 ≤ length) (index : ℕ) : 0 ≤ (lengths.take index).sum := by
  apply List.sum_nonneg
  intro length inside
  have month := long length (List.mem_of_mem_take inside)
  omega

theorem take_within (long : ∀ length ∈ lengths, 28 ≤ length) (at_ : lengths[index]? = some length) :
    (lengths.take index).sum + length ≤ lengths.sum := by
  induction lengths generalizing index with
  | nil => cases at_
  | cons first rest ih =>
    have more : ∀ length ∈ rest, 28 ≤ length := fun length inside => long length (.tail _ inside)
    cases index with
    | zero =>
      have whole := take_nonneg more rest.length
      rw [List.take_length] at whole
      cases at_
      simp only [List.take_zero,List.sum_nil,List.sum_cons]
      omega
    | succ index =>
      have later := ih more at_
      simp only [List.take_succ_cons,List.sum_cons]
      omega

theorem monthOf_at (long : ∀ length ∈ lengths, 28 ≤ length) (at_ : lengths[index]? = some length) {day : ℤ}
    (from_ : 0 ≤ day) (within : day < length) (month : ℕ) :
    monthOf lengths ((lengths.take index).sum + day) month = (month + index,day + 1) := by
  induction lengths generalizing index month with
  | nil => cases at_
  | cons first rest ih =>
    have more : ∀ length ∈ rest, 28 ≤ length := fun length inside => long length (.tail _ inside)
    cases index with
    | zero =>
      cases at_
      simp [monthOf,within]
    | succ index =>
      have start := take_nonneg more index
      rw [List.take_succ_cons,List.sum_cons,monthOf,if_neg (by omega),
        show first + (rest.take index).sum + day - first = (rest.take index).sum + day by omega,ih more at_]
      simp only [Prod.mk.injEq,and_true]
      omega

theorem month_exists (lengths : List ℤ) (day : ℤ) (from_ : 0 ≤ day) (within : day < lengths.sum) :
    ∃ index length date, lengths[index]? = some length ∧ 1 ≤ date ∧ date ≤ length ∧ day = (lengths.take index).sum + (date - 1) := by
  induction lengths generalizing day with
  | nil =>
    simp only [List.sum_nil] at within
    omega
  | cons first rest ih =>
    by_cases here : day < first
    · exact ⟨0,first,day + 1,rfl,by omega,by omega,by simp⟩
    · rw [List.sum_cons] at within
      obtain ⟨index,length,date,at_,first_,last,same⟩ := ih (day - first) (by omega) (by omega)
      refine ⟨index + 1,length,date,at_,first_,last,?_⟩
      rw [List.take_succ_cons,List.sum_cons]
      omega

end

section
variable {day year date : ℤ} {month : ℕ}

theorem Falls.within (falls : Falls day year month date) : dayFromYear year ≤ day ∧ day < dayFromYear (year + 1) := by
  obtain ⟨length,at_,first,last,rfl⟩ := falls
  have start := take_nonneg (months_long year) month
  have ends := take_within (months_long year) at_
  rw [months_sum] at ends
  rw [dayFromYear_succ]
  omega

theorem Falls.date_range (falls : Falls day year month date) : 1 ≤ date ∧ date ≤ 31 := by
  obtain ⟨length,at_,first,last,_⟩ := falls
  have short : ∀ length ∈ months (yearDays year), length ≤ 31 := by
    unfold months yearDays
    split_ifs <;> decide
  exact ⟨first,last.trans (short length (List.mem_of_getElem? at_))⟩

theorem Falls.monthOf_eq (falls : Falls day year month date) :
    monthOf (months (yearDays year)) (day - dayFromYear year) 1 = (month + 1,date) := by
  obtain ⟨length,at_,first,last,rfl⟩ := falls
  have found := monthOf_at (months_long year) at_ (sub_nonneg.mpr first) (by omega : date - 1 < length) 1
  rw [show dayFromYear year + ((months (yearDays year)).take month).sum + (date - 1) - dayFromYear year =
    ((months (yearDays year)).take month).sum + (date - 1) by omega,found]
  simp only [Prod.mk.injEq]
  omega

theorem falls_exists (day : ℤ) : ∃ year month date, Falls day year month date := by
  obtain ⟨begun,ends⟩ := yearOf_spec day
  rw [dayFromYear_succ] at ends
  obtain ⟨month,length,date,at_,first,last,same⟩ :=
    month_exists (months (yearDays (yearOf day))) (day - dayFromYear (yearOf day)) (by omega) (by rw [months_sum]; omega)
  exact ⟨yearOf day,month,date,length,at_,first,last,by omega⟩

end

/-- What a time is called in the calendar, whether or not `Date` reaches it. -/
structure Date.At (d : Date) (t : ℤ) : Prop where
  minutes : d.minutes = t / 60000 % 60
  hours : d.hours = t / 3600000 % 24
  falls : ∃ (year : ℤ) (month : ℕ), Falls (t / 86400000) year month d.date ∧ d.month = month + 1
  day : d.day = (t / 86400000 + 4) % 7

theorem Date.of_eq_some {t : ℤ} {d : Date} : Date.of t = some d ↔ (-8640000000000000 ≤ t ∧ t ≤ 8640000000000000) ∧ d.At t := by
  have read {year : ℤ} {month : ℕ} {date : ℤ} (falls : Falls (t / 86400000) year month date)
      (range : -8640000000000000 ≤ t ∧ t ≤ 8640000000000000) :
      Date.of t = some ⟨t / 60000 % 60,t / 3600000 % 24,date,month + 1,(t / 86400000 + 4) % 7⟩ := by
    obtain ⟨begun,ends⟩ := falls.within
    unfold Date.of
    rw [if_neg (by omega)]
    dsimp only
    rw [yearOf_eq begun ends,dayFromYear_succ,add_sub_cancel_left,falls.monthOf_eq]
    simp
  constructor
  · intro ok
    have range : -8640000000000000 ≤ t ∧ t ≤ 8640000000000000 := by
      by_contra out
      unfold Date.of at ok
      rw [if_pos (by omega)] at ok
      cases ok
    obtain ⟨year,month,date,falls⟩ := falls_exists (t / 86400000)
    rw [read falls range] at ok
    cases ok
    exact ⟨range,rfl,rfl,⟨year,month,falls,rfl⟩,rfl⟩
  · rintro ⟨range,minutes,hours,⟨year,month,falls,month_⟩,day⟩
    rw [read falls range,← minutes,← hours,← month_,← day]

theorem Date.At.date_range {d : Date} {t : ℤ} (at_ : d.At t) : 1 ≤ d.date ∧ d.date ≤ 31 := by
  obtain ⟨_,_,falls,_⟩ := at_.falls
  exact falls.date_range

theorem Date.At.day_range {d : Date} {t : ℤ} (at_ : d.At t) : 0 ≤ d.day ∧ d.day < 7 := by
  rw [at_.day]
  omega

theorem Date.At.move {d : Date} {t day year date : ℤ} {month : ℕ} (at_ : d.At t) (falls : Falls day year month date) :
    Date.At ⟨d.minutes,d.hours,date,month + 1,(day + 4) % 7⟩ (day * 86400000 + t % 86400000) := by
  have same : (day * 86400000 + t % 86400000) / 86400000 = day := by omega
  refine ⟨?_,?_,⟨year,month,?_,rfl⟩,?_⟩
  · rw [at_.minutes]
    omega
  · rw [at_.hours]
    omega
  · rwa [same]
  · rw [same]

/-! When a date, or a day of the week in a month, comes again. -/

section
variable {day year date : ℤ} {month : ℕ}

theorem months_other {days length : ℤ} (at_ : (months days)[month]? = some length) (other : month ≠ 1) (days' : ℤ) :
    (months days')[month]? = some length := by
  rcases month with _ | _ | month
  · exact at_
  · exact absurd rfl other
  · exact at_

theorem months_february {days length : ℤ} (at_ : (months days)[1]? = some length) : length = days - 337 :=
  (Option.some.inj at_).symm

theorem yearDays_le (year : ℤ) : yearDays year ≤ 366 := by
  unfold yearDays
  split <;> omega

theorem Falls.next_year {from_ : ℤ} (falls : Falls day (yearOf from_ + 1) month date) : from_ ≤ day ∧ day ≤ from_ + 732 := by
  obtain ⟨begun,ends⟩ := falls.within
  obtain ⟨begun',ends'⟩ := yearOf_spec from_
  have this_ := dayFromYear_succ (yearOf from_)
  have next := dayFromYear_succ (yearOf from_ + 1)
  have thisDays := yearDays_le (yearOf from_)
  have nextDays := yearDays_le (yearOf from_ + 1)
  omega

/-- A 29 February comes within eight years, also where a century has none. -/
theorem next_leap (day : ℤ) : ∃ day' year, Falls day' year 1 29 ∧ day ≤ day' ∧ day' ≤ day + 2921 ∧
    day' ≤ dayFromYear (yearOf (day - 60) + 8) + 59 := by
  obtain ⟨year,later,soon,leap⟩ := leap_within (yearOf (day - 60))
  obtain ⟨begun,ends⟩ := yearOf_spec (day - 60)
  have after := dayFromYear_le.mpr (show yearOf (day - 60) + 1 ≤ year from later)
  have before := dayFromYear_le.mpr soon
  have far := eight_years (yearOf (day - 60))
  have long : yearDays year = 366 := if_pos leap
  refine ⟨dayFromYear year + 59,year,⟨29,by rw [long]; rfl,by decide,le_refl _,?_⟩,by omega,by omega,by omega⟩
  rw [long,show ((months 366).take 1).sum = 31 by decide]
  ring

/-- A date comes again within eight years, and before the end of `Date`, which is day 100000000,
where that is as far away. -/
theorem Falls.again (falls : Falls day year month date) (from_ : ℤ) (room : from_ ≤ 99997081) :
    ∃ day' year', Falls day' year' month date ∧ from_ ≤ day' ∧ day' ≤ from_ + 2921 ∧ day' < 100000000 := by
  obtain ⟨length,at_,first,last,_⟩ := falls
  by_cases leap : month = 1 ∧ 29 ≤ date
  · obtain ⟨rfl,late⟩ := leap
    have february := months_february at_
    have longest := yearDays_le year
    obtain rfl : date = 29 := by omega
    obtain ⟨day',year',falls,later,soon,before⟩ := next_leap from_
    refine ⟨day',year',falls,later,soon,?_⟩
    have early : yearOf (from_ - 60) ≤ 275752 := by
      obtain ⟨begun,ends⟩ := yearOf_spec (from_ - 60)
      have early := dayFromYear_lt.mp (begun.trans_lt (show from_ - 60 < dayFromYear 275753 by
        rw [show dayFromYear 275753 = 99997188 by decide]
        omega))
      omega
    have least := dayFromYear_le.mpr (show yearOf (from_ - 60) + 8 ≤ 275760 by omega)
    rw [show dayFromYear 275760 = 99999744 by decide] at least
    omega
  · have again : ∃ length, (months (yearDays (yearOf from_ + 1)))[month]? = some length ∧ date ≤ length := by
      by_cases february : month = 1
      · subst february
        exact ⟨_,rfl,by have long := months_long (yearOf from_ + 1) _ (.tail _ (.head _)); omega⟩
      · exact ⟨length,months_other at_ february _,last⟩
    obtain ⟨length',at',last'⟩ := again
    have falls : Falls _ _ _ _ := ⟨length',at',first,last',rfl⟩
    obtain ⟨later,soon⟩ := falls.next_year
    exact ⟨_,_,falls,later,by omega,by omega⟩

/-- So does a day of the week in a month. -/
theorem Falls.again_weekday (falls : Falls day year month date) (from_ : ℤ) (room : from_ ≤ 99997081) :
    ∃ day' year' date', Falls day' year' month date' ∧ day' % 7 = day % 7 ∧ from_ ≤ day' ∧ day' ≤ from_ + 2921 ∧ day' < 100000000 := by
  obtain ⟨length,at_,_⟩ := falls
  have more : month < (months (yearDays (yearOf from_ + 1))).length := (List.getElem?_eq_some_iff.mp at_).choose
  have at' := List.getElem?_eq_getElem more
  have long := months_long _ _ (List.mem_of_getElem? at')
  obtain ⟨start,starts⟩ : ∃ start, start = dayFromYear (yearOf from_ + 1) + ((months (yearDays (yearOf from_ + 1))).take month).sum := ⟨_,rfl⟩
  have falls : Falls (start + (day - start) % 7) (yearOf from_ + 1) month ((day - start) % 7 + 1) :=
    ⟨_,at',by omega,by omega,by rw [← starts]; omega⟩
  obtain ⟨later,soon⟩ := falls.next_year
  exact ⟨_,_,_,falls,by omega,later,by omega,by omega⟩

end

end RatifyOs.Data.Calendar
