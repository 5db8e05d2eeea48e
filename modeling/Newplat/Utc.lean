import Newplat.Base.ByteOrder
import Newplat.Base.Calendar
import Newplat.Base.Numerals
import Newplat.ServUbus

/-! `time_to_14utc` of utils.c. It hands `localtime` the address of an `unsigned int`, and what
is read there has the size of a `time_t`. -/
namespace Newplat

open Base

/-- The byte order of a target, and whether its `time_t` has 64 bits or 32. -/
structure TimeTarget where
  order : ByteOrder
  wide : Bool

def TimeTarget.sizeofTimeT (t : TimeTarget) : Nat := if t.wide then 8 else 4

/-- A fixed zone, by its seconds ahead of UTC. -/
structure Zone where
  offset : Int
  west : -86400 ≤ offset
  east : offset ≤ 86400

/-- `struct tm`, as far as it is printed. -/
@[ext] structure Tm where
  tmYear : Int
  tmMon : Int
  tmMday : Int
  tmHour : Int
  tmMin : Int
  tmSec : Int
  deriving DecidableEq

def brokenDown (zone : Zone) (time : Int) : Tm :=
  let s := time + zone.offset
  let date := dateOf (s / 86400)
  ⟨date.year - 1900, date.month - 1, date.day, s % 86400 / 3600, s % 3600 / 60, s % 60⟩

/-- NULL when the year does not fit its `int`. -/
def localtime (zone : Zone) (timep : Int) : Option Tm :=
  if FitsInt (brokenDown zone timep).tmYear then some (brokenDown zone timep) else none

/-- What `%Y` prints. Libraries agree on a year of four digits; another may come with a sign
or padded. -/
structure YearText where
  text : Int → Bytes
  fourDigits : ∀ y, 1000 ≤ y → y ≤ 9999 → text y = fixedWidth 4 y.toNat
  short : ∀ y, FitsInt (y - 1900) → (text y).length ≤ 12

/-- What follows the year in "%Y%m%d%H%M%S". -/
def withinYear (tm : Tm) : Bytes :=
  fixedWidth 2 (tm.tmMon + 1).toNat ++ (fixedWidth 2 tm.tmMday.toNat ++ (fixedWidth 2 tm.tmHour.toNat ++
    (fixedWidth 2 tm.tmMin.toNat ++ fixedWidth 2 tm.tmSec.toNat)))

/-- The text of "%Y%m%d%H%M%S". -/
def dateText (years : YearText) (tm : Tm) : Bytes := years.text (tm.tmYear + 1900) ++ withinYear tm

/-- `strftime(s, max, "%Y%m%d%H%M%S", tm)`. Without room for it nothing is said of `s`. -/
def strftime (years : YearText) (s : Bytes) (max : Nat) (tm : Tm) : Checked Bytes :=
  if (dateText years tm).length + 1 ≤ max then write s 0 (dateText years tm ++ [0]) else .ok s

/-- The memory that begins with the parameter is given: the `unsigned int` and four bytes more. -/
def timeTo14utc (t : TimeTarget) (zone : Zone) (years : YearText) (time : Word 4) (behind : Vector UInt8 4)
    (utc : Bytes) : Checked Bytes := do
  let nowtime := List.replicate 24 0
  let bytes ← read (storeWord t.order time ++ behind.toList) 0 t.sizeofTimeT
  match localtime zone (loadWord t.order t.sizeofTimeT bytes).toInt with
  | none => .error .nullPointer
  | some lt => do
    let nowtime ← strftime years nowtime 24 lt
    memcpy utc 0 nowtime 0 14

/-- The digits YYYYMMDDhhmmss of a time. -/
def utcDigits (zone : Zone) (time : Int) : Bytes :=
  fixedWidth 4 ((brokenDown zone time).tmYear + 1900).toNat ++ withinYear (brokenDown zone time)

/-- The digits of just this time are written. -/
def WritesDigits (t : TimeTarget) (zone : Zone) (years : YearText) (time : Word 4) (behind : Vector UInt8 4) :
    Prop :=
  ∀ utc, 14 ≤ utc.length →
    timeTo14utc t zone years time behind utc = .ok (utcDigits zone time.toNat ++ utc.drop 14)

/-- Whatever lies behind the parameter, the same digits are written, and they are right. -/
def SameDigits (t : TimeTarget) (zone : Zone) (years : YearText) (time : Word 4) : Prop :=
  ∀ behind behind' utc, 14 ≤ utc.length →
    timeTo14utc t zone years time behind utc = timeTo14utc t zone years time behind' utc ∧
    timeTo14utc t zone years time behind utc = .ok (utcDigits zone time.toNat ++ utc.drop 14)

/-- The bytes read make up the time: a `time_t` of 32 bits has its sign bit clear, and one of
64 bits finds zeros behind the parameter, on the side of its high half. -/
def ReadsTime (t : TimeTarget) (time : Word 4) (behind : Vector UInt8 4) : Prop :=
  if t.wide then behind = Vector.replicate 4 0 ∧ (t.order = .little ∨ time = 0) else time.toNat < 2 ^ 31

section Read

def secondsRead (t : TimeTarget) (time : Word 4) (behind : Vector UInt8 4) : Int :=
  (loadWord t.order t.sizeofTimeT
    ((storeWord t.order time ++ behind.toList).take t.sizeofTimeT)).toInt

variable {t : TimeTarget} (time : Word 4) (behind : Vector UInt8 4)

theorem littleValue_time : littleValue (littleBytes 4 time.toNat) = time.toNat :=
  littleValue_littleBytes (word_bound time)

theorem secondsRead_narrow (narrow : t.wide = false) :
    secondsRead t time behind = (time.toNat : Int).bmod (2 ^ 32) := by
  have size : t.sizeofTimeT = 4 := by simp [TimeTarget.sizeofTimeT, narrow]
  have front : (storeWord t.order time ++ behind.toList).take 4 = storeWord t.order time :=
    List.take_left' (storeWord_length t.order time)
  rw [secondsRead, size, front, loadWord_storeWord, BitVec.toInt_eq_toNat_bmod]

/-- The bytes behind the parameter, as the number they would be. -/
def numberBehind (t : TimeTarget) : Nat := littleValue (t.order.arrange behind.toList)

theorem numberBehind_bound : numberBehind behind t < 2 ^ 32 := by
  have bound := littleValue_bound (t.order.arrange behind.toList)
  rwa [arrange_length, Vector.length_toList] at bound

theorem secondsRead_wide (wide : t.wide = true) :
    secondsRead t time behind =
      ((littleValue (t.order.arrange (storeWord t.order time ++ behind.toList)) : Nat) : Int).bmod (2 ^ 64) := by
  have size : t.sizeofTimeT = 8 := by simp [TimeTarget.sizeofTimeT, wide]
  have whole : (storeWord t.order time ++ behind.toList).length = 8 := by
    rw [List.length_append, storeWord_length, Vector.length_toList]
  rw [secondsRead, size, List.take_of_length_le (Nat.le_of_eq whole), loadWord, BitVec.toInt_ofNat']

theorem secondsRead_little (wide : t.wide = true) (order : t.order = .little) :
    secondsRead t time behind = ((time.toNat + 2 ^ 32 * numberBehind behind t : Nat) : Int).bmod (2 ^ 64) := by
  rw [secondsRead_wide time behind wide, numberBehind, order, storeWord]
  simp only [ByteOrder.arrange, littleValue_append, littleBytes_length, littleValue_time]
  rfl

theorem secondsRead_big (wide : t.wide = true) (order : t.order = .big) :
    secondsRead t time behind = ((numberBehind behind t + 2 ^ 32 * time.toNat : Nat) : Int).bmod (2 ^ 64) := by
  rw [secondsRead_wide time behind wide, numberBehind, order, storeWord]
  simp only [ByteOrder.arrange, List.reverse_append, List.reverse_reverse, littleValue_append,
    List.length_reverse, Vector.length_toList, littleValue_time]
  rfl

/-- A signed word: the number itself, or less by the number of all words. -/
theorem bmod_cases {n m : Nat} (even : 2 ∣ m) (bound : n < m) :
    (2 * n < m ∧ (n : Int).bmod m = n) ∨ (m ≤ 2 * n ∧ (n : Int).bmod m = n - m) := by
  rw [Int.bmod_def, Int.emod_eq_of_lt (by omega) (by omega)]
  split
  · omega
  · omega

theorem numberBehind_zero_iff : numberBehind behind t = 0 ↔ behind = Vector.replicate 4 0 := by
  constructor
  · intro zero
    have zeros := littleValue_zero zero
    have bytes : ∀ b ∈ behind.toList, b = 0 := by
      cases order : t.order with
      | little => simpa [order, ByteOrder.arrange] using zeros
      | big => simpa [order, ByteOrder.arrange] using zeros
    apply Vector.toList_inj.mp
    rw [Vector.toList_replicate, List.eq_replicate_iff]
    exact ⟨Vector.length_toList, bytes⟩
  · intro zeros
    have arranged : t.order.arrange (List.replicate 4 0) = List.replicate 4 0 := by
      cases t.order with
      | little => rfl
      | big => rfl
    rw [numberBehind, zeros, Vector.toList_replicate, arranged, littleValue_zeros]

/-- What is read is the time exactly when the bytes behind it say so. -/
theorem readsTime_iff : secondsRead t time behind = time.toNat ↔ ReadsTime t time behind := by
  have small : time.toNat < 2 ^ 32 := time.isLt
  have bound := numberBehind_bound (t := t) behind
  cases wide : t.wide with
  | false =>
    rw [secondsRead_narrow time behind wide, ReadsTime, wide]
    have value := bmod_cases (m := 2 ^ 32) (by decide) small
    simp only [Bool.false_eq_true, if_false]
    omega
  | true =>
    simp only [ReadsTime, wide, if_true, ← numberBehind_zero_iff (t := t)]
    cases order : t.order with
    | little =>
      rw [secondsRead_little time behind wide order]
      have value := bmod_cases (n := time.toNat + 2 ^ 32 * numberBehind behind t) (m := 2 ^ 64) (by decide)
        (by omega)
      simp only [true_or, and_true]
      omega
    | big =>
      rw [secondsRead_big time behind wide order]
      have value := bmod_cases (n := numberBehind behind t + 2 ^ 32 * time.toNat) (m := 2 ^ 64) (by decide)
        (by omega)
      have zero : time = 0 ↔ time.toNat = 0 := BitVec.toNat_inj.symm
      simp only [reduceCtorEq, false_or, zero]
      omega

end Read

section Digits

variable {zone : Zone} {s s' : Int}

/-- The year of a time is printed with four digits, as all are from 1000 to 9999. -/
def FourDigits (zone : Zone) (s : Int) : Prop :=
  1000 ≤ (brokenDown zone s).tmYear + 1900 ∧ (brokenDown zone s).tmYear + 1900 ≤ 9999

/-- So are the years of two 32-bit ranges around 1970 and the next two. -/
theorem fourDigits_near (low : -2 ^ 31 ≤ s) (high : s ≤ 2 ^ 34) : FourDigits zone s := by
  have west := zone.west
  have east := zone.east
  have range := year_range (n := (s + zone.offset) / 86400) (by omega) (by omega)
  simp only [FourDigits, brokenDown]
  omega

theorem localtime_fourDigits (four : FourDigits zone s) : localtime zone s = some (brokenDown zone s) := by
  have fits : FitsInt (brokenDown zone s).tmYear := by
    unfold FourDigits at four
    unfold FitsInt
    omega
  rw [localtime, if_pos fits]

theorem brokenDown_bounds (zone : Zone) (s : Int) :
    (0 ≤ (brokenDown zone s).tmMon + 1 ∧ (brokenDown zone s).tmMon + 1 < 100) ∧
    (0 ≤ (brokenDown zone s).tmMday ∧ (brokenDown zone s).tmMday < 100) ∧
    (0 ≤ (brokenDown zone s).tmHour ∧ (brokenDown zone s).tmHour < 100) ∧
    (0 ≤ (brokenDown zone s).tmMin ∧ (brokenDown zone s).tmMin < 100) ∧
    0 ≤ (brokenDown zone s).tmSec ∧ (brokenDown zone s).tmSec < 100 := by
  have date := dateOf_bounds ((s + zone.offset) / 86400)
  simp only [brokenDown]
  omega

/-- In one zone the fields determine the time. -/
theorem brokenDown_inj (same : brokenDown zone s = brokenDown zone s') : s = s' := by
  simp only [brokenDown, Tm.mk.injEq] at same
  obtain ⟨year, month, day, hour, minute, second⟩ := same
  have date : dateOf ((s + zone.offset) / 86400) = dateOf ((s' + zone.offset) / 86400) := by
    ext <;> omega
  have days := congrArg dayNumber date
  rw [dayNumber_dateOf, dayNumber_dateOf] at days
  omega

theorem twoDigits_inj {m n : Int} (low : 0 ≤ m ∧ m < 100) (low' : 0 ≤ n ∧ n < 100)
    (same : fixedWidth 2 m.toNat = fixedWidth 2 n.toNat) : m = n := by
  have value := fixedWidth_inj (by omega) (by omega) same
  omega

theorem utcDigits_inj (four : FourDigits zone s) (four' : FourDigits zone s')
    (same : utcDigits zone s = utcDigits zone s') : s = s' := by
  have fields := brokenDown_bounds zone s
  have fields' := brokenDown_bounds zone s'
  unfold FourDigits at four four'
  have part {k m n : Nat} {xs ys : Bytes} (joined : fixedWidth k m ++ xs = fixedWidth k n ++ ys) :
      fixedWidth k m = fixedWidth k n ∧ xs = ys :=
    List.append_inj joined (by rw [fixedWidth_length, fixedWidth_length])
  obtain ⟨year, rest⟩ := part same
  obtain ⟨month, rest⟩ := part rest
  obtain ⟨day, rest⟩ := part rest
  obtain ⟨hour, rest⟩ := part rest
  obtain ⟨minute, second⟩ := part rest
  have years := fixedWidth_inj (by omega) (by omega) year
  have months := twoDigits_inj fields.1 fields'.1 month
  have days := twoDigits_inj fields.2.1 fields'.2.1 day
  have hours := twoDigits_inj fields.2.2.1 fields'.2.2.1 hour
  have minutes := twoDigits_inj fields.2.2.2.1 fields'.2.2.2.1 minute
  have seconds := twoDigits_inj fields.2.2.2.2 fields'.2.2.2.2 second
  have same : brokenDown zone s = brokenDown zone s' := Tm.ext (by omega) (by omega) days hours minutes seconds
  exact brokenDown_inj same

end Digits

section Written

variable {t : TimeTarget} {zone : Zone} {years : YearText} {time : Word 4} {behind : Vector UInt8 4} {lt : Tm}

theorem withinYear_length (lt : Tm) : (withinYear lt).length = 10 := by
  simp [withinYear, fixedWidth_length]

theorem dateText_short (years : YearText) (fits : FitsInt lt.tmYear) : (dateText years lt).length ≤ 22 := by
  have short := years.short (lt.tmYear + 1900) (by rwa [add_sub_cancel_right])
  rw [dateText, List.length_append, withinYear_length]
  omega

/-- The text in a cleared array of 24 bytes. -/
def nowtimeOf (years : YearText) (lt : Tm) : Bytes :=
  dateText years lt ++ List.replicate (24 - (dateText years lt).length) 0

theorem nowtimeOf_length (fits : FitsInt lt.tmYear) : (nowtimeOf years lt).length = 24 := by
  have short := dateText_short years fits
  rw [nowtimeOf, List.length_append, List.length_replicate]
  omega

theorem strftime_fits (fits : FitsInt lt.tmYear) :
    strftime years (List.replicate 24 0) 24 lt = .ok (nowtimeOf years lt) := by
  have short := dateText_short years fits
  have size : (dateText years lt ++ [0]).length = (dateText years lt).length + 1 := by
    rw [List.length_append, List.length_singleton]
  have room : (dateText years lt ++ [0]).length ≤ (List.replicate 24 (0 : UInt8)).length := by
    rw [size, List.length_replicate]
    omega
  have left : 24 - (dateText years lt).length = 24 - ((dateText years lt).length + 1) + 1 := by omega
  rw [strftime, if_pos (by omega), write_start room, size, List.drop_replicate, nowtimeOf, left,
    List.replicate_succ, List.append_assoc]
  rfl

theorem localtime_fits {s : Int} (broken : localtime zone s = some lt) :
    FitsInt lt.tmYear ∧ lt = brokenDown zone s := by
  unfold localtime at broken
  split at broken
  · cases broken
    exact ⟨by assumption, rfl⟩
  · cases broken

/-- The function by what it reads: NULL is followed, or fourteen bytes of the text are copied. -/
theorem timeTo14utc_run {utc : Bytes} (enough : 14 ≤ utc.length) :
    timeTo14utc t zone years time behind utc = match localtime zone (secondsRead t time behind) with
      | none => .error .nullPointer
      | some lt => .ok ((nowtimeOf years lt).take 14 ++ utc.drop 14) := by
  have room : t.sizeofTimeT ≤ (storeWord t.order time ++ behind.toList).length := by
    rw [List.length_append, storeWord_length, Vector.length_toList, TimeTarget.sizeofTimeT]
    split <;> omega
  have bytes : read (storeWord t.order time ++ behind.toList) 0 t.sizeofTimeT =
      .ok ((storeWord t.order time ++ behind.toList).take t.sizeofTimeT) := read_start rfl room
  simp only [timeTo14utc, bytes, ok_bind, secondsRead]
  split
  · rfl
  · rename_i lt broken
    have fits := (localtime_fits broken).1
    have source : 14 ≤ (nowtimeOf years lt).length := by
      rw [nowtimeOf_length fits]
      omega
    have size : ((nowtimeOf years lt).take 14).length = 14 := by
      rw [List.length_take]
      omega
    have front : read (nowtimeOf years lt) 0 14 = .ok ((nowtimeOf years lt).take 14) := read_start rfl source
    rw [strftime_fits fits, ok_bind, memcpy, front, ok_bind, write_start (by omega), size]

theorem nowtime_digits {s : Int} (four : FourDigits zone s) :
    (nowtimeOf years (brokenDown zone s)).take 14 = utcDigits zone s := by
  have text : dateText years (brokenDown zone s) = utcDigits zone s := by
    rw [dateText, years.fourDigits _ four.1 four.2, utcDigits]
  have size : (utcDigits zone s).length = 14 := by
    rw [utcDigits, List.length_append, fixedWidth_length, withinYear_length]
  rw [nowtimeOf, text, List.take_left' size]

theorem writes_iff (four : FourDigits zone (secondsRead t time behind)) :
    WritesDigits t zone years time behind ↔ ReadsTime t time behind := by
  have small : time.toNat < 2 ^ 32 := time.isLt
  have four' : FourDigits zone time.toNat := fourDigits_near (by omega) (by omega)
  have run (utc : Bytes) (enough : 14 ≤ utc.length) : timeTo14utc t zone years time behind utc =
      .ok (utcDigits zone (secondsRead t time behind) ++ utc.drop 14) := by
    rw [timeTo14utc_run enough, localtime_fourDigits four]
    simp only [nowtime_digits four]
  rw [← readsTime_iff]
  constructor
  · intro writes
    have right := writes (List.replicate 14 0) (Nat.le_of_eq List.length_replicate.symm)
    rw [run _ (Nat.le_of_eq List.length_replicate.symm)] at right
    exact utcDigits_inj four four' (List.append_cancel_right (Except.ok.inj right))
  · intro same utc enough
    rw [run utc enough, same]

/-- When the bytes read make up the time, its digits are written. -/
theorem writes_digits (reads : ReadsTime t time behind) : WritesDigits t zone years time behind := by
  have small : time.toNat < 2 ^ 32 := time.isLt
  have same := (readsTime_iff time behind).mpr reads
  have four : FourDigits zone (secondsRead t time behind) := by
    rw [same]
    exact fourDigits_near (by omega) (by omega)
  exact (writes_iff four).mpr reads

/-- The month is among the bytes copied, whatever the year. -/
theorem nowtime_month (years : YearText) (fits : FitsInt lt.tmYear) :
    (((nowtimeOf years lt).take 14).drop (years.text (lt.tmYear + 1900)).length).take 2 =
      fixedWidth 2 (lt.tmMon + 1).toNat := by
  have short := years.short (lt.tmYear + 1900) (by rwa [add_sub_cancel_right])
  have within : 2 ≤ 14 - (years.text (lt.tmYear + 1900)).length := by omega
  rw [nowtimeOf, dateText, withinYear, List.append_assoc, List.drop_take, List.drop_left, List.take_take,
    min_eq_left within, List.append_assoc, List.take_left' (fixedWidth_length 2 _)]

/-- Thirty-one days later it is another month, so a text that stays is one of a later year. -/
theorem month_later {s : Int} {lt' : Tm} (broken : localtime zone s = some lt)
    (broken' : localtime zone (s + 2678400) = some lt')
    (same : (nowtimeOf years lt).take 14 = (nowtimeOf years lt').take 14) : lt.tmYear < lt'.tmYear := by
  obtain ⟨fits, rfl⟩ := localtime_fits broken
  obtain ⟨fits', rfl⟩ := localtime_fits broken'
  have order := year_mono (n := (s + zone.offset) / 86400) (m := (s + 2678400 + zone.offset) / 86400) (by omega)
  by_contra unchanged
  have year : (brokenDown zone s).tmYear = (brokenDown zone (s + 2678400)).tmYear := by
    simp only [brokenDown] at unchanged ⊢
    omega
  have month := nowtime_month years fits
  have month' := nowtime_month years fits'
  rw [same, year, month'] at month
  have months := twoDigits_inj (brokenDown_bounds zone _).1 (brokenDown_bounds zone s).1 month
  simp only [brokenDown] at year months
  have apart := month_apart (n := (s + zone.offset) / 86400) (m := (s + 2678400 + zone.offset) / 86400)
    (by omega) (by omega)
  omega

/-- Three times 31 days apart have a year in common, so they do not all print alike. -/
theorem texts_change {s : Int} {text : Bytes}
    (same : ∀ k : Int, 0 ≤ k → k ≤ 2 → ∃ lt, localtime zone (s + 2678400 * k) = some lt ∧
      (nowtimeOf years lt).take 14 = text) : False := by
  obtain ⟨a, first, textA⟩ := same 0 (by decide) (by decide)
  obtain ⟨b, second, textB⟩ := same 1 (by decide) (by decide)
  obtain ⟨c, third, textC⟩ := same 2 (by decide) (by decide)
  have next : s + 2678400 * 1 = s + 2678400 * 0 + 2678400 := by omega
  have last : s + 2678400 * 2 = s + 2678400 * 1 + 2678400 := by omega
  have later := month_later first (next ▸ second) (textA.trans textB.symm)
  have later' := month_later second (last ▸ third) (textB.trans textC.symm)
  obtain ⟨-, rfl⟩ := localtime_fits first
  obtain ⟨-, rfl⟩ := localtime_fits second
  obtain ⟨-, rfl⟩ := localtime_fits third
  simp only [brokenDown] at later later'
  have apart := years_apart (n := (s + 2678400 * 0 + zone.offset) / 86400)
    (m := (s + 2678400 * 2 + zone.offset) / 86400) (by omega)
  omega

theorem writes_text (writes : WritesDigits t zone years time behind) :
    ∃ lt, localtime zone (secondsRead t time behind) = some lt ∧
      (nowtimeOf years lt).take 14 = utcDigits zone time.toNat := by
  have enough : 14 ≤ (List.replicate 14 (0 : UInt8)).length := Nat.le_of_eq List.length_replicate.symm
  have right := writes (List.replicate 14 0) enough
  rw [timeTo14utc_run enough] at right
  cases broken : localtime zone (secondsRead t time behind) with
  | none =>
    rw [broken] at right
    cases right
  | some lt =>
    rw [broken] at right
    exact ⟨lt, rfl, List.append_cancel_right (Except.ok.inj right)⟩

/-- Memory behind the parameter that reads as a given word. -/
def behindOf (t : TimeTarget) (w : Word 4) : Vector UInt8 4 :=
  ⟨(storeWord t.order w).toArray, by rw [List.size_toArray, storeWord_length]⟩

theorem numberBehind_behindOf (w : Word 4) : numberBehind (behindOf t w) t = w.toNat := by
  have bytes : (behindOf t w).toList = storeWord t.order w := rfl
  rw [numberBehind, bytes, storeWord, arrange_arrange, littleValue_time]

theorem big_behind {n : Nat} (wide : t.wide = true) (order : t.order = .big) (small : n < 2 ^ 32) :
    secondsRead t time (behindOf t (BitVec.ofNat 32 n)) =
      ((2 ^ 32 * time.toNat : Nat) : Int).bmod (2 ^ 64) + n := by
  have bound : time.toNat < 2 ^ 32 := time.isLt
  have value : (BitVec.ofNat 32 n).toNat = n := by
    rw [BitVec.toNat_ofNat, Nat.mod_eq_of_lt small]
  have alone := bmod_cases (n := 2 ^ 32 * time.toNat) (m := 2 ^ 64) (by decide) (by omega)
  have both := bmod_cases (n := n + 2 ^ 32 * time.toNat) (m := 2 ^ 64) (by decide) (by omega)
  rw [secondsRead_big time _ wide order, numberBehind_behindOf, value]
  omega

/-- A wide `time_t` always finds memory behind the parameter that spoils the digits. -/
theorem wide_spoiled (wide : t.wide = true) : ∃ behind, ¬ WritesDigits t zone years time behind := by
  have bound : time.toNat < 2 ^ 32 := time.isLt
  by_contra always
  have writes (behind : Vector UInt8 4) : WritesDigits t zone years time behind := by
    by_contra spoiled
    exact always ⟨behind, spoiled⟩
  cases order : t.order with
  | little =>
    have number : numberBehind (behindOf t 1) t = 1 := numberBehind_behindOf 1
    have read := secondsRead_little time (behindOf t 1) wide order
    have value := bmod_cases (n := time.toNat + 2 ^ 32 * 1) (m := 2 ^ 64) (by decide) (by omega)
    rw [number] at read
    have four : FourDigits zone (secondsRead t time (behindOf t 1)) := fourDigits_near (by omega) (by omega)
    have reads := (writes_iff four).mp (writes (behindOf t 1))
    rw [ReadsTime, if_pos wide, ← numberBehind_zero_iff (t := t), number] at reads
    exact absurd reads.1 (by decide)
  | big =>
    have alike : ∀ k : Int, 0 ≤ k → k ≤ 2 →
        ∃ lt, localtime zone (((2 ^ 32 * time.toNat : Nat) : Int).bmod (2 ^ 64) + 2678400 * k) = some lt ∧
          (nowtimeOf years lt).take 14 = utcDigits zone time.toNat := by
      intro k low high
      have shift : ((2678400 * k).toNat : Int) = 2678400 * k := Int.toNat_of_nonneg (by omega)
      have small : (2678400 * k).toNat < 2 ^ 32 := by omega
      have text := writes_text (writes (behindOf t (BitVec.ofNat 32 (2678400 * k).toNat)))
      rwa [big_behind wide order small, shift] at text
    exact texts_change alike

end Written

/-- When the digits are right whatever lies behind the parameter, and when they are for what
does lie there. -/
theorem utc_digits_iff (t : TimeTarget) (zone : Zone) (years : YearText) (time : Word 4) :
    (SameDigits t zone years time ↔ t.wide = false ∧ time.toNat < 2 ^ 31) ∧
    ∀ behind, ReadsTime t time behind → WritesDigits t zone years time behind := by
  have bound : time.toNat < 2 ^ 32 := time.isLt
  refine ⟨⟨?_, ?_⟩, fun behind reads => writes_digits reads⟩
  · intro same
    have writes (behind : Vector UInt8 4) : WritesDigits t zone years time behind :=
      fun utc enough => (same behind behind utc enough).2
    cases wide : t.wide with
    | true =>
      have spoils : ∃ behind, ¬ WritesDigits t zone years time behind := wide_spoiled wide
      obtain ⟨behind, spoiled⟩ := spoils
      exact absurd (writes behind) spoiled
    | false =>
      have read := secondsRead_narrow time (Vector.replicate 4 0) wide
      have value := bmod_cases (m := 2 ^ 32) (by decide) bound
      have four : FourDigits zone (secondsRead t time (Vector.replicate 4 0)) :=
        fourDigits_near (by omega) (by omega)
      have reads := (writes_iff four).mp (writes (Vector.replicate 4 0))
      rw [ReadsTime, wide] at reads
      exact ⟨rfl, by simpa using reads⟩
  · rintro ⟨narrow, small⟩
    have reads (behind : Vector UInt8 4) : ReadsTime t time behind := by
      rw [ReadsTime, narrow]
      simpa using small
    intro behind behind' utc enough
    have first : WritesDigits t zone years time behind := writes_digits (reads behind)
    have second : WritesDigits t zone years time behind' := writes_digits (reads behind')
    exact ⟨(first utc enough).trans (second utc enough).symm, first utc enough⟩

def utcZone : Zone := ⟨0, by decide, by decide⟩

/-- Years as plain decimal numbers. -/
def plainYears : YearText where
  text y := if 1000 ≤ y ∧ y ≤ 9999 then fixedWidth 4 y.toNat else CString.ascii (toString y)
  fourDigits y low high := if_pos ⟨low, high⟩
  short y fits := by
    unfold FitsInt at fits
    split
    · rw [fixedWidth_length]
      decide
    · rw [ascii_int]
      split
      · rw [numeral_length (by decide)]
        omega
      · have digits := (numeral_length (n := (-y).toNat) (k := 11) (by decide)).mpr (by omega)
        rw [List.length_cons]
        omega

/-- Half past eight on 15 March 2026. -/
def flightSeconds : Word 4 := 1773563400

theorem flight_digits_written :
    WritesDigits ⟨.little, true⟩ utcZone plainYears flightSeconds (Vector.replicate 4 0) :=
  (utc_digits_iff ⟨.little, true⟩ utcZone plainYears flightSeconds).2 (Vector.replicate 4 0) ⟨rfl, Or.inl rfl⟩

/-- One byte behind the parameter moves the date by 136 years; so does the sign bit, where the
`time_t` has 32 bits. -/
theorem flight_digits_spoiled :
    timeTo14utc ⟨.little, true⟩ utcZone plainYears flightSeconds #v[1, 0, 0, 0] (List.replicate 14 0) =
      .ok (CString.ascii "21620421145816") ∧
    timeTo14utc ⟨.little, true⟩ utcZone plainYears flightSeconds #v[0, 0, 0, 0] (List.replicate 14 0) =
      .ok (CString.ascii "20260315083000") ∧
    timeTo14utc ⟨.little, false⟩ utcZone plainYears 2147483648 #v[0, 0, 0, 0] (List.replicate 14 0) =
      .ok (CString.ascii "19011213204552") ∧
    ¬ SameDigits ⟨.little, true⟩ utcZone plainYears flightSeconds := by
  have spoiled : timeTo14utc ⟨.little, true⟩ utcZone plainYears flightSeconds #v[1, 0, 0, 0]
      (List.replicate 14 0) = .ok (CString.ascii "21620421145816") := by decide +kernel
  have right : timeTo14utc ⟨.little, true⟩ utcZone plainYears flightSeconds #v[0, 0, 0, 0]
      (List.replicate 14 0) = .ok (CString.ascii "20260315083000") := by decide +kernel
  refine ⟨spoiled, right, by decide +kernel, ?_⟩
  intro same
  have alike := (same #v[1, 0, 0, 0] #v[0, 0, 0, 0] (List.replicate 14 0) (by decide)).1
  rw [spoiled, right] at alike
  exact absurd (Except.ok.inj alike) (by decide)

end Newplat
