import RatifyOs.Autonomy.Jobs
import RatifyOs.Data.Calendar
import RatifyOs.Data.Numeral

/-! `nextScheduleTime`: when a schedule fires after a time, and that no time at which it
fires lies between the two. -/
namespace RatifyOs.Autonomy
open Data Data.Result Data.Calendar

inductive Schedule where
  | at_ (time : Double)
  | everyMs (period : Double)
  | cron (cron : Text)
  deriving DecidableEq

/-- `Number.isSafeInteger` of a number that is an integer, as that integer. -/
def safeInteger : Double → Option ℤ
  | .finite q => if q.den = 1 ∧ -maxSafe ≤ q.num ∧ q.num ≤ maxSafe then some q.num else none
  | _ => none

theorem safeInteger_intCast {k a : ℤ} (safe : safeInteger (.finite k) = some a) : a = k := by
  have read := (Option.ite_none_right_eq_some.mp safe).2
  simpa using (Option.some.inj read).symm

/-- `Number.isInteger`, as that integer. -/
def integer : Double → Option ℤ
  | .finite q => if q.den = 1 then some q.num else none
  | _ => none

/-- The values a field of a cron schedule allows. -/
structure ParsedField where
  values : List ℤ
  wildcard : Bool
  deriving DecidableEq

/-- The two ends of a part, before its step. -/
def bounds (base : Text) (min max : ℤ) : Except String (Double × Double) :=
  if base = ['*'] then return (.finite min,.finite max)
  else if '-' ∈ base then
    match base.splitOn '-' with
    | [lo,hi] => return (Text.toNumber lo,Text.toNumber hi)
    | _ => throw "Invalid cron field"
  else return (base.toNumber,base.toNumber)

/-- `for (let x = lo; x <= hi; x += step)` -/
def stepped (lo hi step : ℤ) : List ℤ :=
  ((List.range (hi - lo + 1).toNat).map fun i => lo + i).filter fun x => (x - lo) % step = 0

def part (text : Text) (min max : ℤ) (sunday : Bool) : Except String (List ℤ) := do
  let pieces := text.splitOn '/'
  let base := pieces.headD []
  let step ← required ((pieces[1]?.map fun stepText => integer (Text.toNumber stepText)).getD (some 1)) "Invalid cron field"
  reject (step ≤ 0) "Invalid cron field"
  let (lo,hi) ← bounds base min max
  let lo ← required (integer lo) "Invalid cron field"
  let hi ← required (integer hi) "Invalid cron field"
  reject (lo < min ∨ hi > max ∨ lo > hi) "Invalid cron field"
  return (stepped lo hi step).map fun x => if sunday ∧ x = 7 then 0 else x

def field (text : Text) (min max : ℤ) (sunday : Bool) : Except String ParsedField := do
  let parts ← (text.splitOn ',').mapM fun text => part text min max sunday
  return ⟨parts.flatten,text = ['*']⟩

structure Fields where
  minutes : ParsedField
  hours : ParsedField
  date : ParsedField
  month : ParsedField
  day : ParsedField
  deriving DecidableEq

def fields (cron : Text) : Except String Fields :=
  match cron.trim.words with
  | [mi,h,dom,mo,dow] => do
    let minutes ← field mi 0 59 false
    let hours ← field h 0 23 false
    let date ← field dom 1 31 false
    let month ← field mo 1 12 false
    let day ← field dow 0 7 true
    return ⟨minutes,hours,date,month,day⟩
  | _ => throw "Invalid cron schedule"

/-- The minute that begins at the time is one the fields allow. -/
def Fields.fires (fs : Fields) (t : ℤ) : Bool :=
  match Date.of t with
  | none => false
  | some d =>
    let domMatch := decide (d.date ∈ fs.date.values)
    let dowMatch := decide (d.day ∈ fs.day.values)
    let day := if fs.date.wildcard then dowMatch else if fs.day.wildcard then domMatch else domMatch || dowMatch
    decide (d.minutes ∈ fs.minutes.values) && decide (d.hours ∈ fs.hours.values) &&
      decide (d.month ∈ fs.month.values) && day

/-- The loop over the minutes from a time on. -/
def search (fs : Fields) : ℕ → ℤ → Except String ℤ
  | 0, _ => throw "Cron schedule has no occurrence"
  | turns + 1, t => if fs.fires t then return t else search fs turns (t + 60000)

def nextScheduleTime (schedule : Schedule) (after : Double) : Except String ℤ := do
  let after ← required ((safeInteger after).filter fun after => 0 ≤ after) "Invalid schedule timestamp"
  match schedule with
  | .at_ time => required ((safeInteger time).filter fun time => time > after) "One-shot schedule is in the past"
  | .everyMs period =>
    let period ← required ((safeInteger period).filter fun period => period > 0) "Invalid interval"
    reject (after + period > maxSafe) "Invalid interval"
    return after + period
  | .cron cron =>
    let fs ← fields cron
    search fs (60 * 24 * 366 * 8) (after / 60000 * 60000 + 60000)

example : nextScheduleTime (.cron "*/15 * * * *".toList) (.finite 1735690020000) = .ok 1735690500000 := by decide +kernel

/-- The times at which a schedule fires whose first time is given. -/
def Fires (first : ℤ) : Schedule → ℤ → Prop
  | .at_ _, o => o = first
  | .everyMs period, o => ∃ (ms : ℤ) (turns : ℕ), safeInteger period = some ms ∧ 0 < ms ∧ o = first + turns * ms
  | .cron cron, o => ∃ fs, fields cron = .ok fs ∧ fs.fires o ∧ o % 60000 = 0 ∧ first ≤ o

theorem search_eq_ok {fs : Fields} {turns : ℕ} {t o : ℤ} (found : search fs turns t = .ok o) :
    fs.fires o ∧ t ≤ o ∧ (o - t) % 60000 = 0 ∧ ∀ u, t ≤ u → u < o → (u - t) % 60000 = 0 → ¬fs.fires u := by
  induction turns generalizing t with
  | zero => cases found
  | succ turns ih =>
    rw [search] at found
    split at found
    · rename_i here
      cases found
      exact ⟨here,le_refl _,by omega,fun u from_ below _ => absurd below (not_lt.mpr from_)⟩
    · rename_i miss
      obtain ⟨here,later,grid,none_⟩ := ih found
      refine ⟨here,by omega,by omega,fun u from_ below on => ?_⟩
      obtain rfl | past := from_.eq_or_lt
      · exact miss
      · exact none_ u (by omega) below (by omega)

/-- What `nextScheduleTime` returns, by the kind of the schedule. -/
inductive Next (after o : ℤ) : Schedule → Prop
  | at_ {time : Double} (safe : safeInteger time = some o) (future : after < o) : Next after o (.at_ time)
  | everyMs {period : Double} {ms : ℤ} (safe : safeInteger period = some ms) (positive : 0 < ms)
      (sum : o = after + ms) : Next after o (.everyMs period)
  | cron {cron : Text} {fs : Fields} (read : fields cron = .ok fs) (fires : fs.fires o) (future : after < o)
      (grid : o % 60000 = 0) (least : ∀ u, after < u → u < o → u % 60000 = 0 → ¬fs.fires u) : Next after o (.cron cron)

theorem next_of_ok {schedule : Schedule} {after : Double} {o : ℤ} (ok : nextScheduleTime schedule after = .ok o) :
    ∃ a, safeInteger after = some a ∧ 0 ≤ a ∧ Next a o schedule := by
  obtain ⟨a,from_,ok⟩ := bind_eq_ok.mp ok
  obtain ⟨safe,positive⟩ := Option.filter_eq_some_iff.mp (required_eq_ok.mp from_)
  refine ⟨a,safe,by simpa using positive,?_⟩
  cases schedule with
  | at_ time =>
    obtain ⟨read,future⟩ := Option.filter_eq_some_iff.mp (required_eq_ok.mp ok)
    exact .at_ read (by simpa using future)
  | everyMs period =>
    obtain ⟨ms,read,ok⟩ := bind_eq_ok.mp ok
    obtain ⟨read,more⟩ := Option.filter_eq_some_iff.mp (required_eq_ok.mp read)
    obtain ⟨_,_,ok⟩ := bind_eq_ok.mp ok
    exact .everyMs read (by simpa using more) (pure_eq_ok.mp ok).symm
  | cron cron =>
    obtain ⟨fs,read,ok⟩ := bind_eq_ok.mp ok
    obtain ⟨fires,later,grid,least⟩ := search_eq_ok ok
    exact .cron read fires (by omega) (by omega) fun u past below on => least u (by omega) below (by omega)

theorem Next.future {schedule : Schedule} {a o : ℤ} (next : Next a o schedule) : a < o := by
  cases next with
  | at_ _ future => exact future
  | everyMs _ positive sum => omega
  | cron _ _ future => exact future

/-- The time after which a schedule was entered is not seen again: its first time fires. -/
theorem Next.first {schedule : Schedule} {a o : ℤ} (next : Next a o schedule) : Fires o schedule o := by
  cases next with
  | at_ => rfl
  | everyMs safe positive => exact ⟨_,0,safe,positive,by simp⟩
  | cron read fires _ grid => exact ⟨_,read,fires,grid,le_refl o⟩

theorem Fires.le {first o : ℤ} {schedule : Schedule} (fires : Fires first schedule o) : first ≤ o := by
  cases schedule with
  | at_ time => exact (show o = first from fires).ge
  | everyMs period =>
    obtain ⟨ms,turns,_,positive,rfl⟩ := fires
    have turned : 0 ≤ turns * ms := by positivity
    omega
  | cron cron => exact fires.choose_spec.2.2.2

/-- The next time of a schedule that repeats is one at which it fires, and it fires at none between. -/
theorem Next.covers {schedule : Schedule} {first a o : ℤ} (next : Next a o schedule) (here : Fires first schedule a) :
    (Fires first schedule o ∨ ∃ time, schedule = .at_ time) ∧ ∀ u, Fires first schedule u → u < o → u ≤ a := by
  cases next with
  | at_ safe future =>
    refine ⟨.inr ⟨_,rfl⟩,fun u fires _ => ?_⟩
    rw [show u = first from fires,show a = first from here]
  | @everyMs _ ms safe positive sum =>
    obtain ⟨ms',turns,read,_,rfl⟩ := here
    obtain rfl : ms = ms' := Option.some.inj (safe.symm.trans read)
    refine ⟨.inl ⟨ms,turns + 1,read,positive,?_⟩,fun u fires below => ?_⟩
    · rw [sum]
      push_cast
      ring
    · obtain ⟨ms',turns',read',_,rfl⟩ := fires
      cases read.symm.trans read'
      have fewer : (turns' : ℤ) * ms < (turns + 1) * ms := by linarith
      have turned : (turns' : ℤ) < turns + 1 := lt_of_mul_lt_mul_right fewer positive.le
      have bounded : (turns' : ℤ) * ms ≤ turns * ms := mul_le_mul_of_nonneg_right (by omega) positive.le
      omega
  | @cron _ fs read fires future grid least =>
    obtain ⟨_,_,_,_,start⟩ := here
    refine ⟨.inl ⟨fs,read,fires,grid,by omega⟩,fun u hit below => ?_⟩
    obtain ⟨fs',read',hit,on,_⟩ := hit
    obtain rfl : fs = fs' := Except.ok.inj (read.symm.trans read')
    by_contra past
    exact least u (by omega) below on hit

end RatifyOs.Autonomy
