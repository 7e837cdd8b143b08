import Mathlib.Tactic

/-! What the two queues of the message store share: errors, clock readings and the
retry backoff. -/
namespace AgentsCommander.MessageStore

/-- A clock reading. The store keeps its texts, whose order is the chronological one. -/
abbrev Timestamp := ℤ

inductive MessageStoreError where
  | bodyTooLarge
  | sqlite
  | idempotencyConflict
  | capacityExceeded
  | operationNotFound
  | invalidTransition
  | actuationCommitAmbiguous
  | storeCorrupt
  deriving DecidableEq, Repr

def inlineBodyMaxBytes : ℕ := 256 * 1024

def i64Max : ℤ := 2 ^ 63 - 1

/-- Saturating at `i64::MAX`; a negative exponent wraps to a huge one, as `as u32` does. -/
def retryBackoffSeconds (attempt : ℤ) : ℤ :=
  let exponent := min (attempt - 1) 5 % 2 ^ 32
  if 63 ≤ exponent then i64Max else min i64Max (5 * 2 ^ exponent.toNat)

theorem retryBackoffSeconds_of_pos {attempt : ℤ} (h : 1 ≤ attempt) :
    retryBackoffSeconds attempt = 5 * 2 ^ (min (attempt - 1) 5).toNat := by
  have hlo : 0 ≤ min (attempt - 1) 5 := le_min (by omega) (by omega)
  have hhi : min (attempt - 1) 5 ≤ 5 := min_le_right _ _
  have hmod : min (attempt - 1) 5 % 2 ^ 32 = min (attempt - 1) 5 := by omega
  have hpow : (2 : ℤ) ^ (min (attempt - 1) 5).toNat ≤ 2 ^ 5 :=
    pow_le_pow_right₀ (by norm_num) (by omega)
  unfold retryBackoffSeconds
  rw [hmod, if_neg (by omega), min_eq_right]
  unfold i64Max
  omega

end AgentsCommander.MessageStore
