import Newplat.Base.Numerals
import Newplat.Device

/-! The times of a report. Both are kept in a `long`, the clock's milliseconds and the number
that the drone's fourteen digits spell. -/
namespace Newplat

open Base

/-- What `gettimeofday` gives from 1970 on, while the seconds fit 32 bits. -/
structure WallClock extends Timeval where
  since1970 : 0 ≤ tvSec
  fits : tvSec ≤ 2147483647
  usecLow : 0 ≤ tvUsec
  usecHigh : tvUsec ≤ 999999

namespace WallClock

def millis (tv : WallClock) : Int := tv.tvSec * 1000 + tv.tvUsec / 1000

def NotAfter (tv tv' : WallClock) : Prop :=
  tv.tvSec < tv'.tvSec ∨ tv.tvSec = tv'.tvSec ∧ tv.tvUsec ≤ tv'.tvUsec

theorem millis_mono {tv tv' : WallClock} (order : tv.NotAfter tv') : tv.millis ≤ tv'.millis := by
  have low := tv'.usecLow
  have high := tv.usecHigh
  unfold millis
  rcases order with earlier | ⟨same, within⟩
  · omega
  · omega

theorem millis_bounds (tv : WallClock) : 0 ≤ tv.millis ∧ tv.millis < 2 ^ 63 := by
  have sec := tv.since1970
  have late := tv.fits
  have low := tv.usecLow
  have high := tv.usecHigh
  unfold millis
  omega

end WallClock

/-- The text of fourteen digits, YYYYMMDDhhmmss when they are a date. -/
def timeText (digits : Vector (Fin 10) 14) : CString where
  bytes := digitBytes digits.toList
  nulFree := fun member => absurd (digitBytes_digits member).1 (by decide)

/-- The clock is exact at two times and keeps their order, and the report carries the number
that the digits spell. -/
def TimesKept (p : Platform) (tv tv' : WallClock) (digits : Vector (Fin 10) 14) (r : Read) (w : World) : Prop :=
  timestamp p.target tv.toTimeval = tv.millis ∧ timestamp p.target tv'.toTimeval = tv'.millis ∧
    timestamp p.target tv.toTimeval ≤ timestamp p.target tv'.toTimeval ∧
    ∃ report w', cjsonCreateUavData p r w = .ok report w' ∧
      report.getObjectItem "time" = some (.number (spelled digits.toList))

section Long

variable {t : Target} {x : Int}

/-- A `long` of 32 bits holds a number exactly up to its largest value. -/
theorem toLong_exact_iff (nonneg : 0 ≤ x) (bound : x < 2 ^ 63) :
    t.toLong x = x ↔ t.wide = true ∨ x ≤ 2147483647 := by
  cases wide : t.wide with
  | true =>
    have bits : t.addressBits = 64 := by simp [Target.addressBits, wide]
    refine iff_of_true ?_ (Or.inl rfl)
    rw [Target.toLong, bits, Int.bmod_eq_of_le (by omega) (by omega)]
  | false =>
    have bits : t.addressBits = 32 := by simp [Target.addressBits, wide]
    have range := Int.bmod_lt (x := x) (m := 2 ^ 32) (by decide)
    rw [Target.toLong, bits]
    constructor
    · intro same
      rw [same] at range
      exact Or.inr (by omega)
    · intro small
      have fits : x ≤ 2147483647 := by simpa using small
      exact Int.bmod_eq_of_le (by omega) (by omega)

theorem timestamp_exact_iff (tv : WallClock) :
    timestamp t tv.toTimeval = tv.millis ↔ t.wide = true ∨ tv.millis ≤ 2147483647 := by
  obtain ⟨low, high⟩ := tv.millis_bounds
  have computed : timestamp t tv.toTimeval = t.toLong tv.millis := by
    rw [timestamp, Int.tdiv_eq_ediv_of_nonneg tv.usecLow]
    rfl
  rw [computed]
  exact toLong_exact_iff low high

theorem atol_exact_iff (digits : Vector (Fin 10) 14) : t.atol (timeText digits) = spelled digits.toList ↔
    t.wide = true ∨ spelled digits.toList ≤ 2147483647 := by
  have bound := spelled_bound digits.toList
  have value : decimal (timeText digits) = spelled digits.toList := by
    rw [decimal_digits fun b member => digitBytes_digits member]
    exact congrArg Nat.cast (digitBytes_value digits.toList)
  rw [Vector.length_toList] at bound
  rw [Target.atol, value, toLong_exact_iff (by omega) (by omega)]
  norm_cast

end Long

/-- The report of the drone, when the identity can be read. -/
theorem cjsonCreateUavData_time {p : Platform} {r : Read} {w w' : World} {id time : CString}
    (string : cstr w.gUavData.time = .ok time) (identity : readDeviceId r w = .ok id w') :
    cjsonCreateUavData p r w =
      .ok (uavObject id (uavValue (reportFlyTime w) w.gUavData) (p.target.atol time)) w' := by
  unfold cjsonCreateUavData
  rw [get_bind_run, string, check_ok_bind, bind_ok identity]
  rfl

/-- Where the times of two readings of the clock and of a report are exact and in order. -/
theorem times_kept_iff (p : Platform) {tv tv' : WallClock} (order : tv.NotAfter tv')
    (digits : Vector (Fin 10) 14) {r : Read} {w w' : World} {id : CString}
    (holds : cstr w.gUavData.time = .ok (timeText digits)) (identity : readDeviceId r w = .ok id w') :
    TimesKept p tv tv' digits r w ↔
      p.target.wide = true ∨ tv'.millis ≤ 2147483647 ∧ spelled digits.toList ≤ 2147483647 := by
  have mono := WallClock.millis_mono order
  have report := cjsonCreateUavData_time (p := p) holds identity
  constructor
  · rintro ⟨_, later, _, object, end', made, time⟩
    rw [report] at made
    cases made
    have value : p.target.atol (timeText digits) = spelled digits.toList :=
      CJson.number.inj (Option.some.inj time)
    have clock := timestamp_exact_iff tv' |>.mp later
    have drone := atol_exact_iff digits |>.mp value
    tauto
  · intro condition
    have clock : p.target.wide = true ∨ tv'.millis ≤ 2147483647 := by tauto
    have earlier : p.target.wide = true ∨ tv.millis ≤ 2147483647 := clock.imp_right mono.trans
    have drone : p.target.wide = true ∨ spelled digits.toList ≤ 2147483647 := by tauto
    have first := (timestamp_exact_iff tv).mpr earlier
    have second := (timestamp_exact_iff tv').mpr clock
    have value := (atol_exact_iff digits).mpr drone
    refine ⟨first, second, ?_, _, _, report, ?_⟩
    · rw [first, second]
      exact mono
    · rw [value]
      rfl

def flightTime : Vector (Fin 10) 14 := #v[2, 0, 2, 6, 0, 3, 1, 5, 0, 8, 3, 0, 0, 0]

def flightWorld : World :=
  { World.start devicePlatform.target with
    gUavData := { UavData.zero with time := (timeText flightTime).bytes ++ [0, 0] } }

def lastMilli : WallClock := ⟨⟨2147483, 647000⟩, by decide, by decide, by decide, by decide⟩

def nextMilli : WallClock := ⟨⟨2147483, 648000⟩, by decide, by decide, by decide, by decide⟩

theorem flight_times_kept : TimesKept devicePlatform lastMilli nextMilli flightTime ⟨[], .unavailable⟩ flightWorld :=
  have order : lastMilli.NotAfter nextMilli := Or.inr ⟨rfl, by decide⟩
  have identity : readDeviceId ⟨[], .unavailable⟩ flightWorld = .ok .empty flightWorld := rfl
  (times_kept_iff devicePlatform order flightTime rfl identity).mpr (Or.inl rfl)

/-- The same device with a `long` of 32 bits. -/
def narrowPlatform : Platform := { devicePlatform with target := ⟨false, false⟩ }

/-- In January 1970 the milliseconds wrap to a negative number, and the date is another one. -/
theorem flight_times_lost :
    timestamp narrowPlatform.target nextMilli.toTimeval = -2147483648 ∧
    timestamp narrowPlatform.target lastMilli.toTimeval = 2147483647 ∧
    narrowPlatform.target.atol (timeText flightTime) = 954347768 ∧
    ¬ TimesKept narrowPlatform lastMilli nextMilli flightTime ⟨[], .unavailable⟩ flightWorld := by
  have wraps : timestamp narrowPlatform.target nextMilli.toTimeval = -2147483648 := by decide
  have last : timestamp narrowPlatform.target lastMilli.toTimeval = 2147483647 := by decide
  have date : narrowPlatform.target.atol (timeText flightTime) = 954347768 := by decide
  refine ⟨wraps, last, date, ?_⟩
  intro kept
  have order := kept.2.2.1
  rw [last, wraps] at order
  omega

end Newplat
