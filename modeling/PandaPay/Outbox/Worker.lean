import PandaPay.Library.Checked
import PandaPay.Library.InsertionMap
import PandaPay.Library.Lease

/-!
# What the outboxes share

The outbox of reward events and the outbox of notifications are worked off alike: a worker claims
rows under a lease with a token, and reports back under that token. Instants are in microseconds.

## Main definitions

* `Lease`: the columns `lease_token`, `lease_until` and `lease_owner`
* `lapsed`: nobody holds a lease that still runs
* `isWorkerId`, `isErrorCode`: the checks on texts
* `retrySeconds`: how long a failed row waits
-/

namespace PandaPay.Outbox

/-- The canonical text of a `uuid`. -/
abbrev Uuid := String

/-- Microseconds since the epoch. -/
abbrev Timestamp := ℤ

def seconds (n : ℤ) : ℤ := n * 1000000

def hours (n : ℤ) : ℤ := seconds (n * 3600)

def days (n : ℤ) : ℤ := hours (n * 24)

/-- How often a row may be claimed. -/
def attemptLimit : ℕ := 8

/-- The columns of a lease, which are there exactly while a row is leased. -/
structure Lease where
  token : Uuid
  leaseUntil : Timestamp
  owner : String
  deriving DecidableEq

/-- `lease_until IS NULL OR lease_until <= now`. -/
def lapsed {ω : Type} (now : Timestamp) (phase : Phase Lease ω) : Bool :=
  phase.lease?.all fun lease => lease.leaseUntil ≤ now

/-- The text matches `^[A-Za-z0-9._:-]{1,120}$`. -/
def isWorkerId (s : String) : Bool :=
  1 ≤ s.length && s.length ≤ 120 &&
    s.toList.all fun c => c.isAlphanum || c = '.' || c = '_' || c = ':' || c = '-'

/-- The text matches `^[a-z][a-z0-9_]{0,63}$`. -/
def isErrorCode (s : String) : Bool :=
  match s.toList with
  | [] => false
  | c :: cs => c.isLower && cs.length ≤ 63 && cs.all fun d => d.isLower || d.isDigit || d = '_'

/-- The code reported where it is one, otherwise `other`. -/
def errorCodeOr (other : String) (reported : Option String) : String :=
  (reported.filter isErrorCode).getD other

/-- `LEAST(30 * 2 ^ GREATEST(attempts - 1, 0), 3600)`. -/
def retrySeconds (attempts : ℕ) : ℕ := min (30 * 2 ^ (attempts - 1)) 3600

end PandaPay.Outbox
