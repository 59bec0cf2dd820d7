import Mathlib.Algebra.Order.Group.Unbundled.Int
import Mathlib.Algebra.Order.Ring.Nat
import Mathlib.Data.Int.DivMod

/-!
# Token buckets

`lib/evloop/token_bucket.c`: the level of a bucket is a signed number of 32 bits, and it is refilled with unsigned ones.
-/

namespace TorJet.Evloop

/-- `INT32_MAX`, which is `TOKEN_BUCKET_MAX_BURST`. -/
def INT32_MAX : Int := 2 ^ 31 - 1

def INT32_MIN : Int := -2 ^ 31

def UINT32_MAX : Nat := 2 ^ 32 - 1

def TICKS_PER_STEP : Nat := 16

/-- A conversion to `size_t` -/
def toSize (x : Int) : Nat := (x % 2 ^ 64).toNat

/-- A conversion to `uint32_t` -/
def toU32 (x : Int) : Nat := (x % 2 ^ 32).toNat

/-- A conversion of a `uint32_t` to `int32_t` -/
def toI32 (x : Nat) : Int := Int.bmod x (2 ^ 32)

/-- `token_bucket_cfg_t`, as it is used: there is a rate and a burst. -/
structure TokenBucketCfg where
  rate : Nat
  burst : Int
  rate_pos : 1 ≤ rate
  rate_le : rate ≤ UINT32_MAX
  burst_pos : 1 ≤ burst
  burst_le : burst ≤ INT32_MAX

/-- `token_bucket_rw_t`; a level is that of a `token_bucket_raw_t`. -/
structure TokenBucketRw where
  cfg : TokenBucketCfg
  readBucket : Int
  writeBucket : Int
  lastRefilledAtTimestamp : Nat

section Source
variable (cfg : TokenBucketCfg) (bucket : Int)

/-- `gap` in `token_bucket_raw_refill_steps` -/
def gap : Nat := (toSize cfg.burst + 2 ^ 64 - toSize bucket) % 2 ^ 64

/-- `cfg->rate * elapsed`, of two `uint32_t` -/
def added (elapsed : Nat) : Nat := cfg.rate * elapsed % 2 ^ 32

/-- `token_bucket_raw_refill_steps`: the level, and whether the bucket was empty and is not. -/
def tokenBucketRawRefillSteps (elapsed : Nat) : Int × Bool :=
  let wasEmpty : Bool := bucket ≤ 0
  let bucket :=
    if gap cfg bucket / cfg.rate < elapsed then cfg.burst
    else toI32 ((toU32 bucket + added cfg elapsed) % 2 ^ 32)
  (bucket, wasEmpty && 0 < bucket)

end Source

def tokenBucketRawGet (bucket : Int) : Nat := if 0 ≤ bucket then bucket.toNat else 0

/-- `token_bucket_raw_dec`: the level, and whether the bucket became empty. -/
def tokenBucketRawDec (bucket : Int) (n : Nat) : Int × Bool :=
  (Int.bmod (bucket - n) (2 ^ 32), 0 < bucket && bucket ≤ n)

/-- `TB_READ` and `TB_WRITE` -/
def TB_READ : Nat := 1

def TB_WRITE : Nat := 2

/-- `token_bucket_rw_refill`: the bucket, and the flags. -/
def tokenBucketRwRefill (bucket : TokenBucketRw) (nowTsStamp : Nat) : TokenBucketRw × Nat :=
  let elapsedTicks := (nowTsStamp + 2 ^ 32 - bucket.lastRefilledAtTimestamp) % 2 ^ 32
  if elapsedTicks ≤ UINT32_MAX / 4 then
    let elapsedSteps := elapsedTicks / TICKS_PER_STEP
    if elapsedSteps = 0 then (bucket, 0)
    else
      let (readBucket, readFilled) := tokenBucketRawRefillSteps bucket.cfg bucket.readBucket elapsedSteps
      let (writeBucket, writeFilled) := tokenBucketRawRefillSteps bucket.cfg bucket.writeBucket elapsedSteps
      ({ bucket with readBucket, writeBucket, lastRefilledAtTimestamp := nowTsStamp },
        (if readFilled then TB_READ else 0) ||| (if writeFilled then TB_WRITE else 0))
  else ({ bucket with lastRefilledAtTimestamp := nowTsStamp }, 0)

/-! ## One refill -/

section Refill
variable {cfg : TokenBucketCfg} {bucket : Int} {elapsed : Nat}

/-- A level that a bucket can have: an `int32_t` not above the burst. -/
structure IsLevel (cfg : TokenBucketCfg) (bucket : Int) : Prop where
  low : INT32_MIN ≤ bucket
  high : bucket ≤ cfg.burst

def refilled (cfg : TokenBucketCfg) (bucket : Int) (elapsed : Nat) : Int := min cfg.burst (bucket + cfg.rate * elapsed)

theorem gap_eq (level : IsLevel cfg bucket) : (gap cfg bucket : Int) = cfg.burst - bucket := by
  obtain ⟨low, high⟩ := level
  have positive := cfg.burst_pos
  have top := cfg.burst_le
  unfold INT32_MIN at low
  unfold INT32_MAX at top
  rw [gap, toSize, toSize]
  omega

theorem added_eq (level : IsLevel cfg bucket) (enough : elapsed ≤ gap cfg bucket / cfg.rate) :
    added cfg elapsed = cfg.rate * elapsed ∧ (cfg.rate * elapsed : Int) ≤ cfg.burst - bucket := by
  have exact_ := gap_eq level
  have fits : cfg.rate * elapsed ≤ gap cfg bucket := by
    rw [Nat.mul_comm]
    exact (Nat.le_div_iff_mul_le cfg.rate_pos).mp enough
  obtain ⟨low, high⟩ := level
  have top := cfg.burst_le
  unfold INT32_MIN at low
  unfold INT32_MAX at top
  have bound : gap cfg bucket < 2 ^ 32 := by
    clear enough fits
    generalize gap cfg bucket = size at exact_
    omega
  have small : cfg.rate * elapsed < 2 ^ 32 := Nat.lt_of_le_of_lt fits bound
  rw [← exact_, ← Int.natCast_mul, added, Nat.mod_eq_of_lt small]
  exact ⟨rfl, Int.ofNat_le.mpr fits⟩

theorem toI32_sum {n : Nat} (low : INT32_MIN ≤ bucket) (fits : bucket + n ≤ INT32_MAX) :
    toI32 ((toU32 bucket + n) % 2 ^ 32) = bucket + n := by
  unfold INT32_MIN at low
  unfold INT32_MAX at fits
  have mod : (((toU32 bucket + n) % 2 ^ 32 : Nat) : Int) = (bucket + n) % ((2 ^ 32 : Nat) : Int) := by
    rw [toU32]
    omega
  have back : Int.bmod ((bucket + n) % ((2 ^ 32 : Nat) : Int)) (2 ^ 32) = bucket + n := by
    rw [Int.emod_bmod, Int.bmod_eq_of_le]
    · omega
    · omega
  exact (congrArg (Int.bmod · (2 ^ 32)) mod).trans back

theorem tokenBucketRawRefillSteps_eq (level : IsLevel cfg bucket) (elapsed : Nat) :
    tokenBucketRawRefillSteps cfg bucket elapsed =
      (refilled cfg bucket elapsed, bucket ≤ 0 && 0 < refilled cfg bucket elapsed) := by
  have top := cfg.burst_le
  have level_ : (if gap cfg bucket / cfg.rate < elapsed then cfg.burst
      else toI32 ((toU32 bucket + added cfg elapsed) % 2 ^ 32)) = refilled cfg bucket elapsed := by
    rw [refilled]
    split
    · rename_i over_
      have exact_ := gap_eq level
      have more : gap cfg bucket < elapsed * cfg.rate := (Nat.div_lt_iff_lt_mul cfg.rate_pos).mp over_
      have more : (gap cfg bucket : Int) < cfg.rate * elapsed := by
        rw [← Int.natCast_mul, Nat.mul_comm]
        exact Int.ofNat_lt.mpr more
      omega
    · rename_i enough
      obtain ⟨eq, fits⟩ := added_eq level (Nat.not_lt.mp enough)
      rw [eq]
      have room : bucket + (cfg.rate * elapsed : Nat) ≤ INT32_MAX := by
        rw [Int.natCast_mul]
        omega
      rw [toI32_sum level.low room, Int.natCast_mul]
      omega
  rw [tokenBucketRawRefillSteps, level_]

theorem rate_mul_nonneg (cfg : TokenBucketCfg) (n : Nat) : (0 : Int) ≤ cfg.rate * n :=
  Int.mul_nonneg (Int.natCast_nonneg _) (Int.natCast_nonneg _)

theorem refilled_isLevel (level : IsLevel cfg bucket) (elapsed : Nat) : IsLevel cfg (refilled cfg bucket elapsed) := by
  have positive := cfg.burst_pos
  have more := rate_mul_nonneg cfg elapsed
  obtain ⟨low, high⟩ := level
  unfold INT32_MIN at low
  constructor <;> unfold refilled
  · unfold INT32_MIN
    omega
  · omega

end Refill
/-! ## Many refills -/

section Many
variable {cfg : TokenBucketCfg} {bucket : TokenBucketRw} {level : Int} {m n : Nat}

/-- Both levels are levels, and the time is a `uint32_t`. -/
structure IsBucket (bucket : TokenBucketRw) : Prop where
  read : IsLevel bucket.cfg bucket.readBucket
  write : IsLevel bucket.cfg bucket.writeBucket
  stamp : bucket.lastRefilledAtTimestamp ≤ UINT32_MAX

/-- The bucket after calls of `token_bucket_rw_refill`, each so many ticks after the one before it. -/
def refillAfter (bucket : TokenBucketRw) (time : Nat) : List Nat → TokenBucketRw
  | [] => bucket
  | ticks :: rest => refillAfter (tokenBucketRwRefill bucket ((time + ticks) % 2 ^ 32)).1 (time + ticks) rest

theorem refilled_refilled (cfg : TokenBucketCfg) (level : Int) (m n : Nat) :
    refilled cfg (refilled cfg level m) n = refilled cfg level (m + n) := by
  have more := rate_mul_nonneg cfg n
  rw [refilled, refilled, refilled, Int.natCast_add, Int.mul_add]
  omega

theorem refilled_zero (isLevel : IsLevel cfg level) : refilled cfg level 0 = level := by
  have high := isLevel.high
  have none : (cfg.rate * (0 : Nat) : Int) = 0 := Int.mul_zero _
  rw [refilled, none]
  omega

theorem refilled_mono (le : m ≤ n) : refilled cfg level m ≤ refilled cfg level n := by
  have more : (cfg.rate * m : Int) ≤ cfg.rate * n :=
    Int.mul_le_mul_of_nonneg_left (Int.ofNat_le.mpr le) (Int.natCast_nonneg _)
  rw [refilled, refilled]
  omega

/-- A bucket that was refilled by so many steps, at a time up to `ticks` after the start. -/
structure RefilledBy (start : TokenBucketRw) (steps : Nat) (ticks : Nat) (bucket : TokenBucketRw) : Prop where
  cfg : bucket.cfg = start.cfg
  read : bucket.readBucket = refilled start.cfg start.readBucket steps
  write : bucket.writeBucket = refilled start.cfg start.writeBucket steps
  last : ∃ done, bucket.lastRefilledAtTimestamp = (start.lastRefilledAtTimestamp + done) % 2 ^ 32 ∧
    TICKS_PER_STEP * steps ≤ done ∧ done ≤ ticks

theorem RefilledBy.call {start : TokenBucketRw} {steps ticks more : Nat} (isBucket : IsBucket start)
    (so_far : RefilledBy start steps ticks bucket) (short : ticks + more ≤ UINT32_MAX / 4) :
    ∃ steps', RefilledBy start steps' (ticks + more)
      (tokenBucketRwRefill bucket ((start.lastRefilledAtTimestamp + ticks + more) % 2 ^ 32)).1 := by
  obtain ⟨cfg, read, write, done, last, below, le⟩ := so_far
  have elapsed : ((start.lastRefilledAtTimestamp + ticks + more) % 2 ^ 32 + 2 ^ 32 - bucket.lastRefilledAtTimestamp) % 2 ^ 32 =
      ticks + more - done := by
    unfold UINT32_MAX at short
    rw [last]
    omega
  rw [tokenBucketRwRefill, elapsed]
  dsimp only
  have notSkipped : ticks + more - done ≤ UINT32_MAX / 4 := Nat.le_trans (Nat.sub_le _ _) short
  rw [if_pos notSkipped]
  split
  · exact ⟨steps, cfg, read, write, done, last, below, by omega⟩
  · have isRead := refilled_isLevel isBucket.read steps
    have isWrite := refilled_isLevel isBucket.write steps
    rw [cfg, read, write, tokenBucketRawRefillSteps_eq isRead, tokenBucketRawRefillSteps_eq isWrite,
      refilled_refilled, refilled_refilled]
    refine ⟨_, rfl, rfl, rfl, ticks + more, by rw [Nat.add_assoc], ?_, Nat.le_refl _⟩
    unfold TICKS_PER_STEP at below ⊢
    omega

theorem RefilledBy.calls {start : TokenBucketRw} {steps ticks : Nat} (isBucket : IsBucket start) (splits : List Nat)
    (so_far : RefilledBy start steps ticks bucket) (short : ticks + splits.sum ≤ UINT32_MAX / 4) :
    ∃ steps', RefilledBy start steps' (ticks + splits.sum)
      (refillAfter bucket (start.lastRefilledAtTimestamp + ticks) splits) := by
  induction splits generalizing bucket steps ticks with
  | nil => exact ⟨steps, so_far⟩
  | cons more splits ih =>
      rw [List.sum_cons, ← Nat.add_assoc] at short ⊢
      obtain ⟨steps', next⟩ := so_far.call isBucket (Nat.le_trans (Nat.le_add_right _ _) short)
      have rest := ih next short
      rw [← Nat.add_assoc] at rest
      exact rest

theorem RefilledBy.start (isBucket : IsBucket bucket) : RefilledBy bucket 0 0 bucket where
  cfg := rfl
  read := (refilled_zero isBucket.read).symm
  write := (refilled_zero isBucket.write).symm
  last := by
    have stamp := isBucket.stamp
    unfold UINT32_MAX at stamp
    exact ⟨0, by omega, Nat.le_refl _, Nat.le_refl _⟩

theorem single_refill (isBucket : IsBucket bucket) {ticks : Nat} (short : ticks ≤ UINT32_MAX / 4) :
    (tokenBucketRwRefill bucket ((bucket.lastRefilledAtTimestamp + ticks) % 2 ^ 32)).1.readBucket =
        refilled bucket.cfg bucket.readBucket (ticks / TICKS_PER_STEP) ∧
      (tokenBucketRwRefill bucket ((bucket.lastRefilledAtTimestamp + ticks) % 2 ^ 32)).1.writeBucket =
        refilled bucket.cfg bucket.writeBucket (ticks / TICKS_PER_STEP) := by
  have elapsed : ((bucket.lastRefilledAtTimestamp + ticks) % 2 ^ 32 + 2 ^ 32 - bucket.lastRefilledAtTimestamp) % 2 ^ 32 =
      ticks := by
    have stamp := isBucket.stamp
    unfold UINT32_MAX at stamp short
    omega
  rw [tokenBucketRwRefill, elapsed]
  dsimp only
  rw [if_pos short]
  split
  · rename_i none
    rw [none, refilled_zero isBucket.read, refilled_zero isBucket.write]
    exact ⟨rfl, rfl⟩
  · rw [tokenBucketRawRefillSteps_eq isBucket.read, tokenBucketRawRefillSteps_eq isBucket.write]
    exact ⟨rfl, rfl⟩

theorem refillAfter_le (isBucket : IsBucket bucket) {splits : List Nat} (short : splits.sum ≤ UINT32_MAX / 4) :
    (refillAfter bucket bucket.lastRefilledAtTimestamp splits).readBucket ≤
        (tokenBucketRwRefill bucket ((bucket.lastRefilledAtTimestamp + splits.sum) % 2 ^ 32)).1.readBucket ∧
      (refillAfter bucket bucket.lastRefilledAtTimestamp splits).writeBucket ≤
        (tokenBucketRwRefill bucket ((bucket.lastRefilledAtTimestamp + splits.sum) % 2 ^ 32)).1.writeBucket := by
  obtain ⟨read, write⟩ := single_refill isBucket short
  obtain ⟨steps, parts⟩ := (RefilledBy.start isBucket).calls isBucket splits (by omega)
  obtain ⟨done, -, below, le⟩ := parts.last
  have fewer : steps ≤ splits.sum / TICKS_PER_STEP := by
    unfold TICKS_PER_STEP at below ⊢
    omega
  have readParts := parts.read
  have writeParts := parts.write
  rw [Nat.add_zero] at readParts writeParts
  rw [read, write, readParts, writeParts]
  exact ⟨refilled_mono fewer, refilled_mono fewer⟩

end Many

/-! ## Exact refills -/

/-- A refill is exact, with the gap and the product exact on the way, and refilling in parts adds no more. -/
theorem tokenBucketRefill_exact {cfg : TokenBucketCfg} {level : Int} (isLevel : IsLevel cfg level) (elapsed : Nat)
    {bucket : TokenBucketRw} (isBucket : IsBucket bucket) {splits : List Nat} (short : splits.sum ≤ UINT32_MAX / 4) :
    ((gap cfg level : Int) = cfg.burst - level ∧
      (elapsed ≤ gap cfg level / cfg.rate → added cfg elapsed = cfg.rate * elapsed) ∧
      (tokenBucketRawRefillSteps cfg level elapsed).1 = min cfg.burst (level + cfg.rate * elapsed)) ∧
    (refillAfter bucket bucket.lastRefilledAtTimestamp splits).readBucket ≤
        (tokenBucketRwRefill bucket ((bucket.lastRefilledAtTimestamp + splits.sum) % 2 ^ 32)).1.readBucket ∧
      (refillAfter bucket bucket.lastRefilledAtTimestamp splits).writeBucket ≤
        (tokenBucketRwRefill bucket ((bucket.lastRefilledAtTimestamp + splits.sum) % 2 ^ 32)).1.writeBucket := by
  refine ⟨⟨gap_eq isLevel, fun enough => (added_eq isLevel enough).1, ?_⟩, refillAfter_le isBucket short⟩
  rw [tokenBucketRawRefillSteps_eq isLevel]
  rfl

def slow : TokenBucketCfg := ⟨1, 100, by decide, by decide, by decide, by decide⟩

def emptied : TokenBucketRw := ⟨slow, 0, -5, 0⟩

theorem emptied_isBucket : IsBucket emptied := ⟨⟨by decide, by decide⟩, ⟨by decide, by decide⟩, by decide⟩

theorem tokenBucketRefill_exact_slow : (tokenBucketRawRefillSteps slow (-5) 7).1 = 2 ∧
    (refillAfter emptied 0 [24, 24]).readBucket ≤ (tokenBucketRwRefill emptied 48).1.readBucket :=
  ⟨(tokenBucketRefill_exact emptied_isBucket.write 7 emptied_isBucket (show [24, 24].sum ≤ UINT32_MAX / 4 by decide)).1.2.2,
    (tokenBucketRefill_exact emptied_isBucket.write 7 emptied_isBucket (show [24, 24].sum ≤ UINT32_MAX / 4 by decide)).2.1⟩

/-- One call after 2^30 ticks is skipped, and two calls after half of them each are not; the conversion of a negative
level to `size_t` is greater than any burst, so that the subtraction wraps. -/
theorem long_interval_split :
    ¬ ((∀ bucket, IsBucket bucket → ∀ splits : List Nat,
        (refillAfter bucket bucket.lastRefilledAtTimestamp splits).readBucket ≤
          (tokenBucketRwRefill bucket ((bucket.lastRefilledAtTimestamp + splits.sum) % 2 ^ 32)).1.readBucket) ∨
      ∀ cfg level, IsLevel cfg level → toSize level ≤ toSize cfg.burst) := by
  rintro (split | wraps)
  · have le := split emptied emptied_isBucket [2 ^ 29, 2 ^ 29]
    revert le
    decide
  · have le := wraps slow (-5) emptied_isBucket.write
    revert le
    decide

end TorJet.Evloop
