import RatifyOs.Autonomy.Grammar
import RatifyOs.Data.Calendar

/-! The minutes that a cron schedule names, and that `nextScheduleTime` finds the first of them. -/
namespace RatifyOs.Autonomy
open Data Data.Result Data.Calendar

/-- The step of a part, one where none is written. -/
def Steps (text : Text) (step : ℤ) : Prop :=
  match (text.splitOn '/')[1]? with
  | none => step = 1
  | some stepText => Reads stepText step

/-- Its ends, those of the field where it is a star. -/
def Spans (min max : ℤ) (text : Text) (lo hi : ℤ) : Prop :=
  if (text.splitOn '/').headD [] = ['*'] then lo = min ∧ hi = max else Ends ((text.splitOn '/').headD []) lo hi

/-- A part allows what lies on its steps from its low end to its high end. -/
def PartAllows (min max : ℤ) (text : Text) (x : ℤ) : Prop :=
  ∃ lo hi step, Spans min max text lo hi ∧ Steps text step ∧ lo ≤ x ∧ x ≤ hi ∧ step ∣ x - lo

def FieldAllows (min max : ℤ) (text : Text) (x : ℤ) : Prop := ∃ part ∈ text.splitOn ',', PartAllows min max part x

/-- Sunday is the first day of the week, or the eighth. -/
def WeekdayAllowed (dow : Text) (day : ℤ) : Prop := FieldAllows 0 7 dow day ∨ day = 0 ∧ FieldAllows 0 7 dow 7

/-- Where both the date and the day of the week are restricted, either will do. -/
def DayAllowed (dom dow : Text) (date day : ℤ) : Prop :=
  if dom ≠ ['*'] ∧ dow ≠ ['*'] then FieldAllows 1 31 dom date ∨ WeekdayAllowed dow day
  else FieldAllows 1 31 dom date ∧ WeekdayAllowed dow day

structure Matches (mi h dom mo dow : Text) (d : Date) : Prop where
  minutes : FieldAllows 0 59 mi d.minutes
  hours : FieldAllows 0 23 h d.hours
  month : FieldAllows 1 12 mo d.month
  day : DayAllowed dom dow d.date d.day

/-- A whole minute that the schedule names. -/
def Occurs (cron : Text) (t : ℤ) : Prop :=
  t % 60000 = 0 ∧ ∃ mi h dom mo dow d, cron.trim.words = [mi,h,dom,mo,dow] ∧ d.At t ∧ Matches mi h dom mo dow d

section
variable {min max : ℤ} {text : Text}

theorem mem_stepped {lo hi step x : ℤ} : x ∈ stepped lo hi step ↔ lo ≤ x ∧ x ≤ hi ∧ step ∣ x - lo := by
  unfold stepped
  rw [List.mem_filter,decide_eq_true_eq,← Int.dvd_iff_emod_eq_zero]
  simp only [List.mem_map,List.bind_eq_flatMap,List.pure_def,List.mem_flatMap,List.mem_range,List.mem_singleton]
  constructor
  · rintro ⟨⟨_,⟨i,inside,rfl⟩,rfl⟩,on⟩
    exact ⟨by omega,by omega,on⟩
  · rintro ⟨low,high,on⟩
    exact ⟨⟨_,⟨(x - lo).toNat,by omega,rfl⟩,by omega⟩,on⟩

theorem Reads.unique {n n' : ℤ} (reads : Reads text n) (reads' : Reads text n') : n = n' := Option.some.inj (reads.symm.trans reads')

theorem spans_iff {ends : Double × Double} {lo hi : ℤ} (bounded : bounds ((text.splitOn '/').headD []) min max = .ok ends)
    (low : integer ends.1 = some lo) (high : integer ends.2 = some hi) {lo' hi' : ℤ} :
    Spans min max text lo' hi' ↔ lo' = lo ∧ hi' = hi := by
  unfold bounds at bounded
  unfold Spans
  split_ifs at bounded ⊢ with all range
  · obtain rfl := pure_eq_ok.mp bounded
    obtain rfl : min = lo := by simpa [integer] using low
    obtain rfl : max = hi := by simpa [integer] using high
    rfl
  · split at bounded
    · rename_i first second split_
      obtain rfl := pure_eq_ok.mp bounded
      unfold Ends
      constructor
      · rintro (⟨single,_⟩ | ⟨first',second',split_',low',high'⟩)
        · exact absurd range single
        · cases split_.symm.trans split_'
          exact ⟨low'.unique low,high'.unique high⟩
      · rintro ⟨rfl,rfl⟩
        exact .inr ⟨first,second,split_,low,high⟩
    · cases bounded
  · obtain rfl := pure_eq_ok.mp bounded
    unfold Ends
    constructor
    · rintro (⟨_,low',rfl⟩ | ⟨first,second,split_,_⟩)
      · exact ⟨low'.unique low,low'.unique high⟩
      · rw [List.splitOn_eq_singleton range] at split_
        cases split_
    · rintro ⟨rfl,rfl⟩
      exact .inl ⟨range,low,Reads.unique high low⟩

theorem steps_iff {step : ℤ} (read : ((text.splitOn '/')[1]?.map fun stepText => integer (Text.toNumber stepText)).getD (some 1) = some step)
    {step' : ℤ} : Steps text step' ↔ step' = step := by
  unfold Steps
  cases piece : (text.splitOn '/')[1]? with
  | none =>
    rw [piece] at read
    cases read
    rfl
  | some stepText =>
    rw [piece] at read
    exact ⟨fun reads => reads.unique read,fun same => same ▸ read⟩

theorem part_mem {sunday : Bool} {values : List ℤ} (read : part text min max sunday = .ok values) (x : ℤ) :
    x ∈ values ↔ ∃ y, PartAllows min max text y ∧ (if sunday ∧ y = 7 then 0 else y) = x := by
  unfold part at read
  simp only [bind_eq_ok,required_eq_ok,reject_eq_ok,pure_eq_ok] at read
  obtain ⟨step,steps,_,_,ends,bounded,lo,low,hi,high,_,_,rfl⟩ := read
  unfold PartAllows
  simp only [spans_iff bounded low high,steps_iff steps,List.mem_map,mem_stepped]
  refine exists_congr fun y => and_congr_left fun _ => ?_
  constructor
  · intro inside
    exact ⟨lo,hi,step,⟨rfl,rfl⟩,rfl,inside⟩
  · rintro ⟨_,_,_,⟨rfl,rfl⟩,rfl,inside⟩
    exact inside

theorem field_mem {sunday : Bool} {f : ParsedField} (read : field text min max sunday = .ok f) (x : ℤ) :
    x ∈ f.values ↔ ∃ y, FieldAllows min max text y ∧ (if sunday ∧ y = 7 then 0 else y) = x := by
  unfold field at read
  simp only [bind_eq_ok,pure_eq_ok] at read
  obtain ⟨values,parts,rfl⟩ := read
  unfold FieldAllows
  rw [mem_flatten_mapM (fun text values read => part_mem read x) parts]
  constructor
  · rintro ⟨part,inside,y,allows,same⟩
    exact ⟨y,⟨part,inside,allows⟩,same⟩
  · rintro ⟨y,⟨part,inside,allows⟩,same⟩
    exact ⟨part,inside,y,allows,same⟩

theorem field_wildcard {sunday : Bool} {f : ParsedField} (read : field text min max sunday = .ok f) :
    f.wildcard = true ↔ text = ['*'] := by
  unfold field at read
  simp only [bind_eq_ok,pure_eq_ok] at read
  obtain ⟨_,_,rfl⟩ := read
  exact decide_eq_true_iff

theorem field_values {f : ParsedField} (read : field text min max false = .ok f) (x : ℤ) :
    x ∈ f.values ↔ FieldAllows min max text x := by
  rw [field_mem read]
  simp

theorem weekday_values {f : ParsedField} (read : field text 0 7 true = .ok f) {x : ℤ} (day : x < 7) :
    x ∈ f.values ↔ WeekdayAllowed text x := by
  rw [field_mem read]
  constructor
  · rintro ⟨y,allows,same⟩
    split_ifs at same with sunday
    · obtain ⟨-,rfl⟩ := sunday
      exact .inr ⟨same.symm,allows⟩
    · subst same
      exact .inl allows
  · rintro (allows | ⟨rfl,allows⟩)
    · exact ⟨x,allows,if_neg (by omega)⟩
    · exact ⟨7,allows,rfl⟩

theorem star_allows {x : ℤ} (least : min ≤ x) (most : x ≤ max) : FieldAllows min max ['*'] x := by
  refine ⟨['*'],by decide,min,max,1,?_,rfl,least,most,one_dvd _⟩
  exact ⟨rfl,rfl⟩

end

section
variable {dom dow : Text} {date day : ℤ}

theorem DayAllowed.split (allowed : DayAllowed dom dow date day) :
    dom ≠ ['*'] ∧ FieldAllows 1 31 dom date ∨ (dom = ['*'] ∨ dow ≠ ['*']) ∧ WeekdayAllowed dow day := by
  unfold DayAllowed at allowed
  split at allowed
  · rename_i both
    exact allowed.imp (⟨both.1,·⟩) (⟨.inr both.2,·⟩)
  · by_cases everyDate : dom = ['*']
    · exact .inr ⟨.inl everyDate,allowed.2⟩
    · exact .inl ⟨everyDate,allowed.1⟩

theorem dayAllowed_date (restricted : dom ≠ ['*']) (onDate : FieldAllows 1 31 dom date) (week : 0 ≤ day ∧ day < 7) :
    DayAllowed dom dow date day := by
  unfold DayAllowed
  by_cases everyDay : dow = ['*']
  · rw [if_neg (fun both => both.2 everyDay),everyDay]
    exact ⟨onDate,.inl (star_allows week.1 week.2.le)⟩
  · rw [if_pos ⟨restricted,everyDay⟩]
    exact .inl onDate

theorem dayAllowed_day (alone : dom = ['*'] ∨ dow ≠ ['*']) (onDay : WeekdayAllowed dow day) (month : 1 ≤ date ∧ date ≤ 31) :
    DayAllowed dom dow date day := by
  unfold DayAllowed
  by_cases everyDate : dom = ['*']
  · rw [if_neg (fun both => both.1 everyDate),everyDate]
    exact ⟨star_allows month.1 month.2,onDay⟩
  · rw [if_pos ⟨everyDate,alone.resolve_left everyDate⟩]
    exact .inr onDay

theorem day_matches {dates days : ParsedField} (dom_ : field dom 1 31 false = .ok dates) (dow_ : field dow 0 7 true = .ok days)
    (month : 1 ≤ date ∧ date ≤ 31) (week : 0 ≤ day ∧ day < 7) :
    (if dates.wildcard then decide (day ∈ days.values) else if days.wildcard then decide (date ∈ dates.values)
      else decide (date ∈ dates.values) || decide (day ∈ days.values)) = true ↔ DayAllowed dom dow date day := by
  have onDate := field_values dom_ date
  have onDay := weekday_values dow_ week.2
  simp only [field_wildcard dom_,field_wildcard dow_]
  constructor
  · intro asked
    split_ifs at asked with everyDate everyDay
    · exact dayAllowed_day (.inl everyDate) (onDay.mp (of_decide_eq_true asked)) month
    · exact dayAllowed_date everyDate (onDate.mp (of_decide_eq_true asked)) week
    · rcases Bool.or_eq_true _ _ ▸ asked with dated | named
      · exact dayAllowed_date everyDate (onDate.mp (of_decide_eq_true dated)) week
      · exact dayAllowed_day (.inr everyDay) (onDay.mp (of_decide_eq_true named)) month
  · intro allowed
    rcases allowed.split with ⟨restricted,dated⟩ | ⟨alone,named⟩
    · rw [if_neg restricted,decide_eq_true (onDate.mpr dated)]
      simp
    · rw [decide_eq_true (onDay.mpr named)]
      split_ifs with everyDate everyDay
      · rfl
      · exact absurd everyDay (alone.resolve_left everyDate)
      · exact Bool.or_true _

end

theorem fires_iff {cron : Text} {fs : Fields} (read : fields cron = .ok fs) (t : ℤ) :
    fs.fires t = true ↔ ∃ mi h dom mo dow d, cron.trim.words = [mi,h,dom,mo,dow] ∧ Date.of t = some d ∧ Matches mi h dom mo dow d := by
  unfold fields at read
  split at read
  · rename_i mi h dom mo dow split_
    simp only [bind_eq_ok,pure_eq_ok] at read
    obtain ⟨minutes,mi_,hours,h_,date,dom_,month,mo_,day,dow_,rfl⟩ := read
    unfold Fields.fires
    cases here : Date.of t with
    | none => simp
    | some d =>
      have at_ := (Date.of_eq_some.mp here).2
      dsimp only
      rw [Bool.and_eq_true,Bool.and_eq_true,Bool.and_eq_true,decide_eq_true_eq,decide_eq_true_eq,decide_eq_true_eq,
        day_matches dom_ dow_ at_.date_range at_.day_range,field_values mi_,field_values h_,field_values mo_]
      constructor
      · rintro ⟨⟨⟨onMinute,onHour⟩,onMonth⟩,onDay⟩
        exact ⟨mi,h,dom,mo,dow,d,split_,rfl,onMinute,onHour,onMonth,onDay⟩
      · rintro ⟨_,_,_,_,_,_,split_',⟨⟩,named⟩
        cases split_.symm.trans split_'
        exact ⟨⟨⟨named.minutes,named.hours⟩,named.month⟩,named.day⟩
  · cases read

/-- A minute that is named comes again at one of the minutes that are searched. -/
theorem Occurs.again {cron : Text} {u : ℤ} (occurs : Occurs cron u) (from_ : ℤ) (room : from_ ≤ 99997081) :
    ∃ day, from_ ≤ day ∧ day ≤ from_ + 2921 ∧ day < 100000000 ∧ Occurs cron (day * 86400000 + u % 86400000) := by
  obtain ⟨whole,mi,h,dom,mo,dow,d,split_,at_,named⟩ := occurs
  obtain ⟨year,month,falls,month_⟩ := at_.falls
  have there {day year date : ℤ} (falls : Falls day year month date) (allowed : DayAllowed dom dow date ((day + 4) % 7)) :
      Occurs cron (day * 86400000 + u % 86400000) :=
    ⟨by omega,mi,h,dom,mo,dow,_,split_,at_.move falls,named.minutes,named.hours,month_ ▸ named.month,allowed⟩
  rcases named.day.split with ⟨restricted,onDate⟩ | ⟨alone,onDay⟩
  · obtain ⟨day,_,falls,later,soon,reached⟩ := falls.again from_ room
    exact ⟨day,later,soon,reached,there falls (dayAllowed_date restricted onDate (by omega))⟩
  · obtain ⟨day,_,_,falls,weekday,later,soon,reached⟩ := falls.again_weekday from_ room
    have same : d.day = (day + 4) % 7 := by
      rw [at_.day]
      omega
    exact ⟨day,later,soon,reached,there falls (dayAllowed_day alone (same ▸ onDay) falls.date_range)⟩

theorem search_error {fs : Fields} {turns : ℕ} {t u : ℤ} {error : String} (missed : search fs turns t = .error error)
    (later : t ≤ u) (soon : u < t + turns * 60000) (grid : (u - t) % 60000 = 0) : ¬fs.fires u := by
  induction turns generalizing t with
  | zero =>
    simp at soon
    omega
  | succ turns ih =>
    rw [search] at missed
    split at missed
    · cases missed
    · rename_i miss
      obtain rfl | past := later.eq_or_lt
      · exact miss
      · exact ih missed (by omega) (by push_cast at soon; omega) (by omega)

theorem occurs_iff {cron : Text} {fs : Fields} (read : fields cron = .ok fs) {t : ℤ} (range : -8640000000000000 ≤ t ∧ t ≤ 8640000000000000) :
    Occurs cron t ↔ t % 60000 = 0 ∧ fs.fires t = true := by
  unfold Occurs
  rw [fires_iff read]
  simp only [Date.of_eq_some,range,true_and]

/-- The time that `nextScheduleTime` returns is the first whole minute after the start that the
schedule names, and where it finds none there is none at all. -/
theorem first_occurrence (cron : Text) (after : ℤ) (accepted : Accepts cron after) (start : 0 ≤ after)
    (room : after + 8 * 365 * 86400000 ≤ 8640000000000000) :
    (∃ o, nextScheduleTime (.cron cron) (.finite after) = .ok o ∧ IsLeast {u | after < u ∧ Occurs cron u} o) ∨
    nextScheduleTime (.cron cron) (.finite after) = .error "Cron schedule has no occurrence" ∧ ∀ u, ¬Occurs cron u := by
  have valid : 0 ≤ after ∧ after ≤ maxSafe := ⟨start,by unfold maxSafe; omega⟩
  obtain ⟨fs,read⟩ := (fields_accept cron).mpr ((accepts_iff valid cron).mp accepted)
  obtain ⟨first,first_⟩ : ∃ first, first = after / 60000 * 60000 + 60000 := ⟨_,rfl⟩
  have searched : nextScheduleTime (.cron cron) (.finite after) = search fs (60 * 24 * 366 * 8) first := by
    rw [next_cron valid,read,first_]
    rfl
  rcases accepted with ⟨o,ok⟩ | error
  · refine .inl ⟨o,ok,?_⟩
    rw [searched] at ok
    obtain ⟨fires,later,grid,least⟩ := search_eq_ok ok
    obtain ⟨_,_,_,_,_,_,_,here,_⟩ := (fires_iff read o).mp fires
    have range := (Date.of_eq_some.mp here).1
    refine ⟨⟨by omega,(occurs_iff read range).mpr ⟨by omega,fires⟩⟩,?_⟩
    rintro u ⟨past,occurs⟩
    by_contra below
    obtain ⟨whole,fires'⟩ := (occurs_iff read (by omega)).mp occurs
    exact least u (by omega) (by omega) (by omega) fires'
  · refine .inr ⟨error,fun u occurs => ?_⟩
    rw [searched] at error
    obtain ⟨day,later,soon,reached,again⟩ := occurs.again (first / 86400000 + 1) (by omega)
    obtain ⟨whole,fires⟩ := (occurs_iff read (by omega)).mp again
    exact search_error error (by omega) (by omega) (by omega) fires

/-- The 29 February after that of 2096 is found, though 2100 has none. -/
theorem leap_day_found : ∃ o, nextScheduleTime (.cron "0 0 29 2 *".toList) (.finite 3981312000000) = .ok o ∧
    IsLeast {u | 3981312000000 < u ∧ Occurs "0 0 29 2 *".toList u} o := by
  have read : fields "0 0 29 2 *".toList = .ok ⟨⟨[0],false⟩,⟨[0],false⟩,⟨[29],false⟩,⟨[2],false⟩,⟨[0,1,2,3,4,5,6,0],true⟩⟩ := by
    decide +kernel
  have accepted : Accepts "0 0 29 2 *".toList 3981312000000 := (accepts_iff (by decide) _).mpr ((fields_accept _).mp ⟨_,read⟩)
  refine (first_occurrence _ _ accepted (by decide) (by decide)).resolve_right fun none_ => none_.2 4233686400000 ?_
  exact (occurs_iff read (by decide)).mpr ⟨by decide,by decide +kernel⟩

end RatifyOs.Autonomy
