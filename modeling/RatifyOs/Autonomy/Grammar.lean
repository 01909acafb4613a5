import RatifyOs.Autonomy.Schedule

/-! What a cron schedule is, and what `nextScheduleTime` takes for one. -/
namespace RatifyOs.Autonomy
open Data Data.Result

/-- All values, one value, or a range of values, within the bounds. -/
inductive CronBase (min max : ℤ) : Text → Prop
  | all : CronBase min max ['*']
  | value {n : Text} (digits : n.Digits) (least : min ≤ n.digitsValue) (most : n.digitsValue ≤ max) : CronBase min max n
  | range {lo hi : Text} (low : lo.Digits) (high : hi.Digits) (least : min ≤ lo.digitsValue)
      (ordered : lo.digitsValue ≤ hi.digitsValue) (most : hi.digitsValue ≤ max) : CronBase min max (lo ++ '-' :: hi)

/-- A base, or a base with a positive step. -/
inductive CronPart (min max : ℤ) : Text → Prop
  | base {base : Text} (based : CronBase min max base) : CronPart min max base
  | step {base step : Text} (based : CronBase min max base) (digits : step.Digits) (positive : 0 < step.digitsValue) :
      CronPart min max (base ++ '/' :: step)

def CronField (min max : ℤ) (text : Text) : Prop :=
  ∃ parts, parts ≠ [] ∧ text = [','].intercalate parts ∧ ∀ part ∈ parts, CronPart min max part

/-- Minute, hour, day of the month, month and day of the week. -/
def cronBounds : List (ℤ × ℤ) := [(0,59),(0,23),(1,31),(1,12),(0,7)]

def IsCron (cron : Text) : Prop := List.Forall₂ (fun bounds => CronField bounds.1 bounds.2) cronBounds cron.trim.words

/-- `Number(text)` is this integer. -/
def Reads (text : Text) (n : ℤ) : Prop := integer (Text.toNumber text) = some n

/-- The ends of a part as the code finds them. -/
def Ends (base : Text) (lo hi : ℤ) : Prop :=
  '-' ∉ base ∧ Reads base lo ∧ hi = lo ∨ ∃ low high, base.splitOn '-' = [low,high] ∧ Reads low lo ∧ Reads high hi

/-- A part whose numerals are read as integers that fit, by what stands before and behind its first slash. -/
structure LaxPart (min max : ℤ) (text : Text) : Prop where
  step : ∀ stepText ∈ (text.splitOn '/')[1]?, ∃ step, Reads stepText step ∧ 0 < step
  base : (text.splitOn '/').headD [] = ['*'] ∨
    ∃ lo hi, Ends ((text.splitOn '/').headD []) lo hi ∧ min ≤ lo ∧ lo ≤ hi ∧ hi ≤ max

def LaxCron (cron : Text) : Prop :=
  List.Forall₂ (fun bounds text => ∀ part ∈ text.splitOn ',', LaxPart bounds.1 bounds.2 part) cronBounds cron.trim.words

/-- What stands for a number in a part. -/
def numerals (part : Text) : List Text :=
  (part.splitOn '/').tail ++
    if (part.splitOn '/').headD [] = ['*'] then [] else ((part.splitOn '/').headD []).splitOn '-'

/-- One slash at most, and every numeral is made of digits. -/
def PlainPart (part : Text) : Prop := (part.splitOn '/').length ≤ 2 ∧ ∀ n ∈ numerals part, n.Digits

instance (part : Text) : Decidable (PlainPart part) :=
  inferInstanceAs (Decidable ((part.splitOn '/').length ≤ 2 ∧ ∀ n ∈ numerals part, n.Digits))

def PlainCron (cron : Text) : Prop := ∀ text ∈ cron.trim.words, ∀ part ∈ text.splitOn ',', PlainPart part

section
variable {min max : ℤ} {text base : Text}

theorem reads_digits (digits : text.Digits) (small : text.digitsValue < 2 ^ 53) : Reads text text.digitsValue := by
  unfold Reads
  rw [Text.toNumber_of_digits digits,Double.ofRat_natCast small]
  simp [integer]

theorem value_of_reads (digits : text.Digits) {n : ℤ} (reads : Reads text n) (small : n < 2 ^ 52) : n = text.digitsValue := by
  by_cases fits : text.digitsValue < 2 ^ 53
  · exact (Option.some.inj (reads.symm.trans (reads_digits digits fits)))
  · exfalso
    have large : Double.ofRat ((2 ^ 52 : ℕ) : ℚ) ≤ Double.ofRat (text.digitsValue : ℚ) := by
      apply Double.ofRat_mono
      exact_mod_cast (by omega : 2 ^ 52 ≤ text.digitsValue)
    rw [Double.ofRat_natCast (by norm_num)] at large
    unfold Reads at reads
    rw [Text.toNumber_of_digits digits] at reads
    cases read : Double.ofRat (text.digitsValue : ℚ) with
    | finite q =>
      rw [read] at reads large
      rw [Double.finite_le] at large
      unfold integer at reads
      obtain ⟨whole,same⟩ := Option.ite_none_right_eq_some.mp reads
      obtain rfl : q.num = n := Option.some.inj same
      have value : (q.num : ℚ) = q := (Rat.den_eq_one_iff q).mp whole
      rw [← value] at large
      have above : 2 ^ 52 ≤ q.num := by exact_mod_cast large
      omega
    | infinite negative =>
      rw [read] at reads
      cases reads
    | nan =>
      rw [read] at reads
      cases reads

theorem Digits.free (digits : text.Digits) {c : Char} (other : c.isDigit = false) : c ∉ text :=
  fun inside => Text.isDigit_ne (digits.2 c inside) other rfl

theorem CronBase.free (based : CronBase min max base) {c : Char} (other : c.isDigit = false) (star : c ≠ '*') (dash : c ≠ '-') :
    c ∉ base := by
  cases based with
  | all => simpa using star
  | value digits => exact Digits.free digits other
  | range low high =>
    rw [List.mem_append,List.mem_cons]
    rintro (inside | rfl | inside)
    · exact Digits.free low other inside
    · exact dash rfl
    · exact Digits.free high other inside

theorem CronPart.free (part : CronPart min max text) : ',' ∉ text := by
  cases part with
  | base based => exact based.free rfl (by decide) (by decide)
  | step based digits =>
    rw [List.mem_append,List.mem_cons]
    rintro (inside | same | inside)
    · exact based.free rfl (by decide) (by decide) inside
    · cases same
    · exact Digits.free digits rfl inside

theorem CronField.splitOn {parts : List Text} (some_ : parts ≠ []) (all : ∀ part ∈ parts, CronPart min max part) :
    ([','].intercalate parts).splitOn ',' = parts :=
  List.splitOn_intercalate ',' (fun part inside => (all part inside).free) some_

theorem cronField_iff : CronField min max text ↔ ∀ part ∈ text.splitOn ',', CronPart min max part := by
  constructor
  · rintro ⟨parts,some_,rfl,all⟩
    rwa [CronField.splitOn some_ all]
  · intro all
    exact ⟨text.splitOn ',',List.splitOn_ne_nil _ _,(List.intercalate_splitOn ',').symm,all⟩

theorem CronBase.plain (based : CronBase min max base) :
    ∀ n ∈ (if base = ['*'] then [] else base.splitOn '-'), Text.Digits n := by
  cases based with
  | all => simp
  | value digits =>
    intro n inside
    split at inside
    · cases inside
    · rw [List.splitOn_eq_singleton (Digits.free digits rfl)] at inside
      obtain rfl := List.mem_singleton.mp inside
      exact digits
  | range low high =>
    intro n inside
    split at inside
    · cases inside
    · rw [List.splitOn_append_cons_self_of_not_mem (Digits.free low rfl),List.splitOn_eq_singleton (Digits.free high rfl)] at inside
      rcases List.mem_cons.mp inside with rfl | inside
      · exact low
      · obtain rfl := List.mem_singleton.mp inside
        exact high

theorem CronPart.plain (part : CronPart min max text) : PlainPart text := by
  unfold PlainPart numerals
  cases part with
  | base based =>
    rw [List.splitOn_eq_singleton (based.free rfl (by decide) (by decide))]
    exact ⟨by simp,based.plain⟩
  | step based digits positive =>
    rw [List.splitOn_append_cons_self_of_not_mem (based.free rfl (by decide) (by decide)),
      List.splitOn_eq_singleton (Digits.free digits rfl)]
    refine ⟨by simp,fun n inside => ?_⟩
    rcases List.mem_append.mp inside with step_ | base_
    · obtain rfl := List.mem_singleton.mp step_
      exact digits
    · exact based.plain n base_

/-- Where numerals are digits, what the code reads is what is written. -/
theorem LaxPart.cron (lax : LaxPart min max text) (plain : PlainPart text) (small : max < 2 ^ 52) : CronPart min max text := by
  obtain ⟨few,digits⟩ := plain
  unfold numerals at digits
  have based : CronBase min max ((text.splitOn '/').headD []) := by
    rcases lax.base with all | ⟨lo,hi,ends,least,ordered,most⟩
    · rw [all]
      exact .all
    · by_cases all : (text.splitOn '/').headD [] = ['*']
      · rw [all]
        exact .all
      rw [if_neg all] at digits
      have numeral : ∀ n ∈ ((text.splitOn '/').headD []).splitOn '-', Text.Digits n := fun n inside => digits n (List.mem_append_right _ inside)
      rcases ends with ⟨single,reads,rfl⟩ | ⟨low,high,split,readsLow,readsHigh⟩
      · rw [List.splitOn_eq_singleton single] at numeral
        have value := value_of_reads (numeral _ (.head _)) reads (by omega)
        exact .value (numeral _ (.head _)) (by omega) (by omega)
      · rw [split] at numeral
        have lowDigits := numeral low (.head _)
        have highDigits := numeral high (.tail _ (.head _))
        have lowValue := value_of_reads lowDigits readsLow (by omega)
        have highValue := value_of_reads highDigits readsHigh (by omega)
        have joined : ['-'].intercalate (((text.splitOn '/').headD []).splitOn '-') = (text.splitOn '/').headD [] :=
          List.intercalate_splitOn '-'
        rw [split,show ['-'].intercalate [low,high] = low ++ '-' :: high by simp] at joined
        rw [← joined]
        exact .range lowDigits highDigits (by omega) (by omega) (by omega)
  have joined : ['/'].intercalate (text.splitOn '/') = text := List.intercalate_splitOn '/'
  match pieces : text.splitOn '/' with
  | [] => exact absurd pieces (List.splitOn_ne_nil _ _)
  | [base] =>
    rw [pieces] at based joined
    rw [← joined]
    simpa using CronPart.base based
  | [base,step] =>
    rw [pieces] at based joined digits
    obtain ⟨n,reads,positive⟩ := lax.step step (by rw [pieces]; rfl)
    have stepDigits : Text.Digits step := digits step (by simp)
    have nonzero : 0 < Text.digitsValue step := by
      by_contra zero
      have same := Option.some.inj (reads.symm.trans (reads_digits stepDigits (by omega)))
      omega
    rw [← joined]
    simpa using CronPart.step based stepDigits nonzero
  | _ :: _ :: _ :: _ =>
    rw [pieces] at few
    simp at few

theorem bounds_accept (ordered : min ≤ max) :
    (∃ lo hi, (∃ ends, bounds base min max = .ok ends ∧ integer ends.1 = some lo ∧ integer ends.2 = some hi) ∧
      min ≤ lo ∧ lo ≤ hi ∧ hi ≤ max) ↔
    base = ['*'] ∨ ∃ lo hi, Ends base lo hi ∧ min ≤ lo ∧ lo ≤ hi ∧ hi ≤ max := by
  unfold bounds
  by_cases all : base = ['*']
  · rw [if_pos all]
    exact ⟨fun _ => .inl all,fun _ => ⟨min,max,⟨_,rfl,by simp [integer],by simp [integer]⟩,le_refl _,ordered,le_refl _⟩⟩
  rw [if_neg all,or_iff_right all]
  refine exists₂_congr fun lo hi => and_congr_left fun _ => ?_
  unfold Ends Reads
  by_cases range : '-' ∈ base
  · rw [if_pos range]
    constructor
    · rintro ⟨ends,ok,low,high⟩
      split at ok
      · rename_i split_
        obtain rfl := pure_eq_ok.mp ok
        exact .inr ⟨_,_,split_,low,high⟩
      · cases ok
    · rintro (⟨single,_⟩ | ⟨first,second,split_,low,high⟩)
      · exact absurd range single
      · rw [split_]
        exact ⟨_,rfl,low,high⟩
  · rw [if_neg range,List.splitOn_eq_singleton range]
    constructor
    · rintro ⟨ends,ok,low,high⟩
      obtain rfl := pure_eq_ok.mp ok
      exact .inl ⟨range,low,(Option.some.inj (low.symm.trans high)).symm⟩
    · rintro (⟨_,low,rfl⟩ | ⟨_,_,split_,_⟩)
      · exact ⟨_,rfl,low,low⟩
      · cases split_

/-- What the code asks of a part before it steps through its values. -/
theorem part_accepts (ordered : min ≤ max) (sunday : Bool) :
    (∃ values, part text min max sunday = .ok values) ↔ LaxPart min max text := by
  unfold part
  simp only [bind_eq_ok,required_eq_ok,reject_eq_ok,pure_eq_ok]
  constructor
  · rintro ⟨_,step,stepped,_,positive,ends,bounded,lo,low,hi,high,_,within,_⟩
    simp only [not_or,not_lt] at within
    refine ⟨fun stepText inside => ?_,(bounds_accept ordered).mp ⟨lo,hi,⟨ends,bounded,low,high⟩,within.1,within.2.2,within.2.1⟩⟩
    rw [show (text.splitOn '/')[1]? = some stepText from inside] at stepped
    exact ⟨step,stepped,not_le.mp positive⟩
  · rintro ⟨steps,based⟩
    obtain ⟨lo,hi,⟨ends,bounded,low,high⟩,least,order,most⟩ := (bounds_accept ordered).mpr based
    have within : ¬(lo < min ∨ hi > max ∨ lo > hi) := by omega
    cases piece : (text.splitOn '/')[1]? with
    | none => exact ⟨_,1,rfl,(),by decide,ends,bounded,lo,low,hi,high,(),within,rfl⟩
    | some stepText =>
      obtain ⟨step,reads,positive⟩ := steps stepText piece
      exact ⟨_,step,reads,(),not_le.mpr positive,ends,bounded,lo,low,hi,high,(),within,rfl⟩

theorem field_accepts (ordered : min ≤ max) (sunday : Bool) :
    (∃ f, field text min max sunday = .ok f) ↔ ∀ part ∈ text.splitOn ',', LaxPart min max part := by
  have parts := exists_mapM_eq_ok (fun text => part text min max sunday) (text.splitOn ',')
  simp only [part_accepts ordered] at parts
  rw [← parts]
  unfold field
  simp only [bind_eq_ok,pure_eq_ok]
  constructor
  · rintro ⟨_,values,read,_⟩
    exact ⟨values,read⟩
  · rintro ⟨values,read⟩
    exact ⟨_,values,read,rfl⟩

end

theorem fields_accept (cron : Text) : (∃ fs, fields cron = .ok fs) ↔ LaxCron cron := by
  unfold fields LaxCron cronBounds
  constructor
  · rintro ⟨fs,ok⟩
    split at ok
    · rename_i mi h dom mo dow split_
      simp only [bind_eq_ok] at ok
      obtain ⟨minutes,mi_,hours,h_,date,dom_,month,mo_,day,dow_,_⟩ := ok
      rw [split_]
      refine .cons ?_ (.cons ?_ (.cons ?_ (.cons ?_ (.cons ?_ .nil))))
      · exact (field_accepts (by decide) _).mp ⟨_,mi_⟩
      · exact (field_accepts (by decide) _).mp ⟨_,h_⟩
      · exact (field_accepts (by decide) _).mp ⟨_,dom_⟩
      · exact (field_accepts (by decide) _).mp ⟨_,mo_⟩
      · exact (field_accepts (by decide) _).mp ⟨_,dow_⟩
    · cases ok
  · intro lax
    generalize cron.trim.words = texts at lax ⊢
    obtain _ | ⟨mi_,_ | ⟨h_,_ | ⟨dom_,_ | ⟨mo_,_ | ⟨dow_,⟨⟩⟩⟩⟩⟩⟩ := lax
    obtain ⟨_,minutes⟩ := (field_accepts (by decide) false).mpr mi_
    obtain ⟨_,hours⟩ := (field_accepts (by decide) false).mpr h_
    obtain ⟨_,date⟩ := (field_accepts (by decide) false).mpr dom_
    obtain ⟨_,month⟩ := (field_accepts (by decide) false).mpr mo_
    obtain ⟨_,day⟩ := (field_accepts (by decide) true).mpr dow_
    dsimp only
    rw [minutes,hours,date,month,day]
    exact ⟨_,rfl⟩

/-- Whatever is thrown is one of these. -/
def Throws {α : Type} (p : Except String α) (errors : List String) : Prop := ∀ error, p = .error error → error ∈ errors

section
variable {α β : Type} {errors : List String}

theorem throws_pure (a : α) : Throws (pure a) errors := nofun

theorem throws_bind {p : Except String α} {f : α → Except String β} (first : Throws p errors)
    (next : ∀ a, Throws (f a) errors) : Throws (p >>= f) errors := by
  intro error thrown
  cases p with
  | ok a => exact next a error thrown
  | error other =>
    cases thrown
    exact first _ rfl

theorem throws_required (value : Option α) {error : String} (listed : error ∈ errors) : Throws (required value error) errors := by
  cases value with
  | some value => exact nofun
  | none =>
    rintro _ ⟨⟩
    exact listed

theorem throws_reject (c : Prop) [Decidable c] {error : String} (listed : error ∈ errors) : Throws (reject c error) errors := by
  unfold reject
  split
  · rintro _ ⟨⟩
    exact listed
  · exact nofun

theorem throws_mapM {f : α → Except String β} (each : ∀ a, Throws (f a) errors) (xs : List α) : Throws (xs.mapM f) errors := by
  induction xs with
  | nil => exact throws_pure _
  | cons x xs ih =>
    rw [List.mapM_cons]
    exact throws_bind (each x) fun _ => throws_bind ih fun _ => throws_pure _

theorem part_throws (text : Text) (min max : ℤ) (sunday : Bool) : Throws (part text min max sunday) ["Invalid cron field"] := by
  have ends (base : Text) : Throws (bounds base min max) ["Invalid cron field"] := by
    unfold bounds
    split
    · exact throws_pure _
    · split
      · split
        · exact throws_pure _
        · rintro _ ⟨⟩
          exact .head _
      · exact throws_pure _
  unfold part
  refine throws_bind (throws_required _ (.head _)) fun _ => throws_bind (throws_reject _ (.head _)) fun _ => ?_
  refine throws_bind (ends _) fun _ => throws_bind (throws_required _ (.head _)) fun _ => ?_
  exact throws_bind (throws_required _ (.head _)) fun _ => throws_bind (throws_reject _ (.head _)) fun _ => throws_pure _

theorem fields_throw (cron : Text) : Throws (fields cron) ["Invalid cron schedule","Invalid cron field"] := by
  have each (text : Text) (min max : ℤ) (sunday : Bool) :
      Throws (field text min max sunday) ["Invalid cron schedule","Invalid cron field"] := by
    unfold field
    refine throws_bind (throws_mapM (fun text error thrown => ?_) _) fun _ => throws_pure _
    exact .tail _ (part_throws text min max sunday error thrown)
  unfold fields
  split
  · refine throws_bind (each _ _ _ _) fun _ => throws_bind (each _ _ _ _) fun _ => throws_bind (each _ _ _ _) fun _ => ?_
    exact throws_bind (each _ _ _ _) fun _ => throws_bind (each _ _ _ _) fun _ => throws_pure _
  · rintro _ ⟨⟩
    exact .head _

theorem search_throws (fs : Fields) (turns : ℕ) (t : ℤ) : Throws (search fs turns t) ["Cron schedule has no occurrence"] := by
  induction turns generalizing t with
  | zero =>
    rintro _ ⟨⟩
    exact .head _
  | succ turns ih =>
    rw [search]
    split
    · exact throws_pure _
    · exact ih _

end

/-- The string is taken for a schedule, whether or not it has an occurrence. -/
def Accepts (cron : Text) (after : ℤ) : Prop :=
  (∃ o, nextScheduleTime (.cron cron) (.finite after) = .ok o) ∨
  nextScheduleTime (.cron cron) (.finite after) = .error "Cron schedule has no occurrence"

theorem next_cron {after : ℤ} (valid : 0 ≤ after ∧ after ≤ maxSafe) (cron : Text) :
    nextScheduleTime (.cron cron) (.finite after) =
      fields cron >>= fun fs => search fs (60 * 24 * 366 * 8) (after / 60000 * 60000 + 60000) := by
  have safe : (safeInteger (.finite after)).filter (fun after => 0 ≤ after) = some after := by
    have fits : -maxSafe ≤ after := by
      have positive : (0 : ℤ) ≤ maxSafe := by decide
      omega
    simp [safeInteger,valid,fits]
  unfold nextScheduleTime
  rw [safe]
  rfl

theorem accepts_iff {after : ℤ} (valid : 0 ≤ after ∧ after ≤ maxSafe) (cron : Text) : Accepts cron after ↔ LaxCron cron := by
  rw [← fields_accept]
  unfold Accepts
  rw [next_cron valid]
  cases read : fields cron with
  | error error =>
    have listed := fields_throw cron error read
    have other : error ≠ "Cron schedule has no occurrence" := by
      rintro rfl
      simp at listed
    simp [bind,Except.bind,other]
  | ok fs =>
    simp only [Except.ok.injEq,exists_eq',iff_true]
    change (∃ o, search _ _ _ = .ok o) ∨ search _ _ _ = _
    cases found : search fs (60 * 24 * 366 * 8) (after / 60000 * 60000 + 60000) with
    | ok o => exact .inl ⟨o,rfl⟩
    | error error =>
      obtain rfl := List.mem_singleton.mp (search_throws _ _ _ error found)
      exact .inr rfl

/-- A string that is accepted is a schedule exactly where its parts, if they are read as integers
that fit, say so in digits. -/
theorem cron_accepted_iff (cron : Text) (after : ℤ) (valid : 0 ≤ after ∧ after ≤ maxSafe) :
    (Accepts cron after → IsCron cron) ↔ (LaxCron cron → PlainCron cron) := by
  rw [accepts_iff valid]
  refine forall_congr' fun lax => ?_
  unfold LaxCron cronBounds at lax
  unfold IsCron PlainCron cronBounds
  generalize cron.trim.words = texts at lax ⊢
  obtain _ | ⟨mi_,_ | ⟨h_,_ | ⟨dom_,_ | ⟨mo_,_ | ⟨dow_,⟨⟩⟩⟩⟩⟩⟩ := lax
  have fits {min max : ℤ} {text : Text} (lax : ∀ part ∈ text.splitOn ',', LaxPart min max part) (small : max < 2 ^ 52) :
      CronField min max text ↔ ∀ part ∈ text.splitOn ',', PlainPart part := by
    rw [cronField_iff]
    exact forall₂_congr fun part inside => ⟨CronPart.plain,fun plain => (lax part inside).cron plain small⟩
  simp only [List.forall₂_cons,List.Forall₂.nil,and_true,List.forall_mem_cons,List.not_mem_nil,false_implies,implies_true]
  rw [fits mi_ (by decide),fits h_ (by decide),fits dom_ (by decide),fits mo_ (by decide),fits dow_ (by decide)]

/-- A range without its start is read as one that starts at zero. -/
theorem range_without_start : ¬(Accepts "-5 * * * *".toList 0 → IsCron "-5 * * * *".toList) := by
  intro claim
  have cron := claim (.inl ⟨60000,by decide +kernel⟩)
  have words : Text.words (Text.trim "-5 * * * *".toList) = ["-5".toList,['*'],['*'],['*'],['*']] := by decide +kernel
  unfold IsCron cronBounds at cron
  rw [words,List.forall₂_cons] at cron
  have plain := (cronField_iff.mp cron.1 "-5".toList (by decide +kernel)).plain
  exact absurd (plain.2 [] (by decide +kernel)) (by decide)

theorem quarters_cron : IsCron "*/15 9-17 * * 1-5".toList := by
  have accepted : Accepts "*/15 9-17 * * 1-5".toList 32399999 := .inl ⟨32400000,by decide +kernel⟩
  refine (cron_accepted_iff "*/15 9-17 * * 1-5".toList 32399999 (by decide)).mpr (fun _ => ?_) accepted
  have words : Text.words (Text.trim "*/15 9-17 * * 1-5".toList) = ["*/15".toList,"9-17".toList,['*'],['*'],"1-5".toList] := by
    decide +kernel
  unfold PlainCron
  rw [words]
  decide +kernel

end RatifyOs.Autonomy
