import Mathlib.Data.Int.Notation

/-!
# What the program uses of Boost.Asio and of the standard clock

Error codes, the exceptions that can leave a handler, the one-shot timer, and the expiry of
a stream. Time points and durations are exact integers, in nanoseconds, the tick of
`std::chrono::steady_clock`; the timeout of a stream is converted as the source converts
it, in 64 bits.
-/

namespace Asio

/-- `boost::system::error_code`, told apart as far as the program does. `notConnected`
stands for every code that compares equal to `errc::not_connected`. -/
inductive ErrorCode where
  | success | timeout | notConnected | operationAborted
  | other (value : Int)
  deriving DecidableEq, Repr, Inhabited

/-- `explicit operator bool`. -/
def ErrorCode.failed (ec : ErrorCode) : Bool := ec != .success

@[simp] theorem ErrorCode.failed_success : ErrorCode.success.failed = false := rfl
@[simp] theorem ErrorCode.failed_timeout : ErrorCode.timeout.failed = true := rfl

theorem ErrorCode.failed_eq_false {ec : ErrorCode} : ec.failed = false ↔ ec = .success := by
  simp [ErrorCode.failed]

theorem ErrorCode.failed_eq_true {ec : ErrorCode} : ec.failed = true ↔ ec ≠ .success := by
  simp [ErrorCode.failed]

/-- The exceptions the modelled code can meet. -/
inductive Exception where
  | outOfRange        -- `fields::at`, `vector::at`, `object::at`
  | badFunctionCall   -- calling an empty `std::function`
  | invalidUrl        -- the `boost::url` constructor
  | openCV            -- a failed `CV_Assert`
  | notObject         -- `value::as_object`
  deriving DecidableEq, Repr, Inhabited

/-- So many milliseconds and seconds, in exact ticks: the products do not overflow. -/
def milliseconds (n : Int) : Int := n * 1000000
def seconds (n : Int) : Int := n * 1000000000

theorem seconds_le {m n : Int} (le : m ≤ n) : seconds m ≤ seconds n := by
  simp only [seconds]
  omega

/-- `chrono::milliseconds` and `chrono::seconds` of a `long`, converted to the ticks of the
clock; the product of 64 bits wraps around. -/
def millisecondTicks (n : Int64) : Int64 := n * 1000000
def secondTicks (n : Int64) : Int64 := n * 1000000000

/-- `time_point::max()`, which a `beast::tcp_stream` takes for no expiry at all. -/
def timePointMax : Int := 9223372036854775807

/-- The expiry `stream_.expires_after` sets: the sum of the clock reading and the duration
saturates at the largest time point. `none` is never. A reading is not negative, so the sum
does not fall below the smallest one. -/
def expiresAfter (now : Int) (duration : Int64) : Option Int :=
  if now + duration.toInt < timePointMax then some (now + duration.toInt) else none

theorem expiresAfter_eq_some {now deadline : Int} {duration : Int64} :
    expiresAfter now duration = some deadline ↔
      now + duration.toInt < timePointMax ∧ deadline = now + duration.toInt := by
  grind [expiresAfter]

/-- Wrapping around makes no natural number larger. -/
theorem bmod_le_self {n : Int} (nonneg : 0 ≤ n) (m : Nat) : n.bmod m ≤ n := by
  have least : n % m ≤ n := by
    obtain ⟨k, rfl⟩ := Int.eq_ofNat_of_zero_le nonneg
    exact_mod_cast Nat.mod_le k m
  rw [Int.bmod_def]
  split <;> omega

theorem millisecondTicks_le {n : Int64} (nonneg : 0 ≤ n.toInt) :
    (millisecondTicks n).toInt ≤ milliseconds n.toInt := by
  rw [millisecondTicks, milliseconds, Int64.toInt_mul]
  exact bmod_le_self (Int.mul_nonneg nonneg (by decide)) _

/-- Up to 292 years the seconds fit. -/
theorem secondTicks_eq {n : Int64} (nonneg : 0 ≤ n.toInt) (fits : n.toInt ≤ 9223372036) :
    (secondTicks n).toInt = seconds n.toInt := by
  rw [secondTicks, seconds, Int64.toInt_mul]
  apply Int.bmod_eq_of_le_mul_two <;> simp <;> omega

/-- `duration_cast<milliseconds>`, which rounds towards zero. -/
def toMilliseconds (ticks : Int) : Int := ticks.tdiv 1000000

/-- The successive readings `steady_clock::now()` returns; the clock never goes back. -/
structure SteadyClock where
  now : Nat → Int
  forward : ∀ ⦃m n : Nat⦄, m ≤ n → now m ≤ now n

/-- A `steady_timer`: its expiry and the number of waits outstanding on it. The
program gives every wait of a timer the same handler, so their number is enough. -/
structure SteadyTimer where
  expiry : Int
  waits : Nat
  deriving DecidableEq, Repr

def SteadyTimer.asyncWait (t : SteadyTimer) : SteadyTimer := { t with waits := t.waits + 1 }

/-- Setting the expiry cancels the outstanding waits; they complete with
`operation_aborted`. -/
def SteadyTimer.expiresAt (_ : SteadyTimer) (expiry : Int) : SteadyTimer := ⟨expiry, 0⟩

/-- The waits leave the timer when it expires or is cancelled. -/
def SteadyTimer.release (t : SteadyTimer) : SteadyTimer := { t with waits := 0 }

@[simp] theorem SteadyTimer.asyncWait_waits (t : SteadyTimer) :
    t.asyncWait.waits = t.waits + 1 := rfl
@[simp] theorem SteadyTimer.release_expiry (t : SteadyTimer) : t.release.expiry = t.expiry := rfl
@[simp] theorem SteadyTimer.release_waits (t : SteadyTimer) : t.release.waits = 0 := rfl

end Asio
