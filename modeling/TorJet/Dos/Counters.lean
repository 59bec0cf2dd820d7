import TorJet.Base.Bucket
import TorJet.Evloop.TokenBucket

/-!
# Counters against floods

The buckets that count seconds (`lib/evloop/token_bucket.c`), and what is refused by them: the connections and the
circuits of a client (`core/or/dos.c`), the streams of a circuit, the introductions of a service (`feature/hs/hs_dos.c`).
-/

namespace TorJet.Dos
open Evloop Base

/-! ## The counter -/

/-- `token_bucket_ctr_t` -/
structure TokenBucketCtr where
  cfg : TokenBucketCfg
  counter : Int
  lastRefilledAtTimestamp : Nat

def tokenBucketCtrInit (cfg : TokenBucketCfg) (nowTsSec : Nat) : TokenBucketCtr := ⟨cfg, cfg.burst, nowTsSec⟩

def tokenBucketCtrRefill (bucket : TokenBucketCtr) (nowTsSec : Nat) : TokenBucketCtr :=
  let elapsedSec := (nowTsSec + 2 ^ 32 - bucket.lastRefilledAtTimestamp) % 2 ^ 32
  { bucket with
    counter :=
      if elapsedSec ≤ UINT32_MAX / 4 then (tokenBucketRawRefillSteps bucket.cfg bucket.counter elapsedSec).1
      else bucket.counter
    lastRefilledAtTimestamp := nowTsSec }

/-- What each of the callers does: a token is taken where there is one. -/
def tokenBucketCtrTake (bucket : TokenBucketCtr) : TokenBucketCtr :=
  if 0 < tokenBucketRawGet bucket.counter then
    { bucket with counter := (tokenBucketRawDec bucket.counter 1).1 }
  else bucket

@[simp] theorem refill_cfg (bucket : TokenBucketCtr) (now : Nat) :
  (tokenBucketCtrRefill bucket now).cfg = bucket.cfg := by
  rw [tokenBucketCtrRefill]

@[simp] theorem refill_last (bucket : TokenBucketCtr) (now : Nat) :
    (tokenBucketCtrRefill bucket now).lastRefilledAtTimestamp = now := by
  rw [tokenBucketCtrRefill]

@[simp] theorem take_cfg (bucket : TokenBucketCtr) : (tokenBucketCtrTake bucket).cfg = bucket.cfg := by
  unfold tokenBucketCtrTake
  split
  · simp only
  · rfl

@[simp] theorem take_last (bucket : TokenBucketCtr) :
    (tokenBucketCtrTake bucket).lastRefilledAtTimestamp = bucket.lastRefilledAtTimestamp := by
  rw [tokenBucketCtrTake]
  split <;> rfl

section Counter
variable {cfg : TokenBucketCfg} {start gap : Nat} {before gaps : List Nat} {bucket : TokenBucketCtr}

/-- A counter that started full, after a visit at the end of each of these gaps, the latest first. -/
structure Visited (cfg : TokenBucketCfg) (start : Nat) (gaps : List Nat) (bucket : TokenBucketCtr) : Prop where
  config : bucket.cfg = cfg
  counter : bucket.counter = Bucket.left cfg.burst.toNat cfg.rate gaps
  last : bucket.lastRefilledAtTimestamp = (start + gaps.sum) % 2 ^ 32

theorem Visited.init (cfg : TokenBucketCfg) (start : Nat) : Visited cfg start []
    (tokenBucketCtrInit cfg (start % 2 ^ 32)) where
  config := rfl
  counter := (Int.toNat_of_nonneg (Int.le_trans Int.one_nonneg cfg.burst_pos)).symm
  last := rfl

theorem Visited.refill (visited : Visited cfg start before bucket) (short : gap ≤ UINT32_MAX / 4) :
    (tokenBucketCtrRefill bucket ((start + (gap :: before).sum) % 2 ^ 32)).counter =
      Bucket.offered cfg.burst.toNat cfg.rate (gap :: before) := by
  have positive := cfg.burst_pos
  have elapsed : ((start + (gap :: before).sum) % 2 ^ 32 + 2 ^ 32 - bucket.lastRefilledAtTimestamp) % 2 ^ 32 = gap := by
    unfold UINT32_MAX at short
    rw [visited.last, List.sum_cons]
    omega
  have below := Bucket.left_le cfg.burst.toNat cfg.rate before
  have level : IsLevel cfg bucket.counter := by
    rw [visited.counter]
    constructor
    · have low : INT32_MIN ≤ 0 := by decide
      exact Int.le_trans low (Int.natCast_nonneg _)
    · omega
  have refill : (tokenBucketCtrRefill bucket ((start + (gap :: before).sum) % 2 ^ 32)).counter =
      refilled cfg bucket.counter gap := by
    simp only [tokenBucketCtrRefill, elapsed, if_pos short, visited.config]
    rw [tokenBucketRawRefillSteps_eq level]
  rw [refill, visited.counter, refilled, Bucket.offered, ← Int.natCast_mul]
  omega

theorem take_counter {tokens : Nat} (some_ : bucket.counter = tokens) (le : bucket.counter ≤ INT32_MAX) :
    (tokenBucketCtrTake bucket).counter = (tokens - 1 : Nat) := by
  unfold INT32_MAX at le
  rw [some_] at le
  rw [tokenBucketCtrTake, tokenBucketRawGet, some_, if_pos (Int.natCast_nonneg _), Int.toNat_natCast]
  split
  · have small : Int.bmod (tokens - (1 : Nat)) (2 ^ 32) = tokens - 1 := by
      rw [Int.bmod_eq_of_le] <;> omega
    rw [tokenBucketRawDec]
    exact small.trans (by omega)
  · rw [some_]
    omega

theorem Visited.take (visited : Visited cfg start before bucket) (short : gap ≤ UINT32_MAX / 4) :
    Visited cfg start (gap :: before)
      (tokenBucketCtrTake (tokenBucketCtrRefill bucket ((start + (gap :: before).sum) % 2 ^ 32))) := by
  have found := visited.refill short
  have top := cfg.burst_le
  have positive := cfg.burst_pos
  have le : Bucket.offered cfg.burst.toNat cfg.rate (gap :: before) ≤ cfg.burst.toNat := Nat.min_le_left _ _
  have small : (tokenBucketCtrRefill bucket ((start + (gap :: before).sum) % 2 ^ 32)).counter ≤ INT32_MAX := by
    rw [found]
    omega
  constructor
  · rw [take_cfg, refill_cfg, visited.config]
  · exact take_counter found small
  · rw [take_last, refill_last]

theorem get_eq_zero {tokens : Nat} : tokenBucketRawGet tokens = 0 ↔ tokens = 0 := by
  rw [tokenBucketRawGet, if_pos (Int.natCast_nonneg _), Int.toNat_natCast]

theorem left_eq_zero (burst rate gap : Nat) (before : List Nat) :
    Bucket.left burst rate (gap :: before) = 0 ↔ Bucket.offered burst rate (gap :: before) ≤ 1 := Nat.sub_eq_zero_iff_le

end Counter

/-! ## Connections of a client -/

/-- `conn_client_stats_t` -/
structure ConnClientStats where
  concurrentCount : Nat
  connectCount : TokenBucketCtr
  markedUntilTs : Int

/-- A new connection: the seconds since the one before it, what the clock says, and the random part of the mark. -/
structure Connect where
  gap : Nat
  approxTime : Int
  offset : Int

/-- `conn_mark_client` -/
def connMarkClient (period : Int) (stats : ConnClientStats) (event : Connect) : ConnClientStats :=
  { stats with markedUntilTs := event.approxTime + period + event.offset }

/-- `conn_update_on_connect`, where `monotime_coarse_absolute_sec` gives `nowTsSec`. -/
def connUpdateOnConnect (period : Int) (stats : ConnClientStats) (nowTsSec : Nat) (event : Connect) : ConnClientStats :=
  let stats := { stats with
    concurrentCount := (stats.concurrentCount + 1) % 2 ^ 32
    connectCount := tokenBucketCtrTake (tokenBucketCtrRefill stats.connectCount nowTsSec) }
  if tokenBucketRawGet stats.connectCount.counter = 0 ∧ stats.markedUntilTs = 0 then connMarkClient period stats event
  else stats

/-- The statistics of a client after connections, the latest first -/
def afterConnects (period : Int) (stats : ConnClientStats) (start : Nat) : List Connect → ConnClientStats
  | [] => stats
  | event :: before =>
      connUpdateOnConnect period (afterConnects period stats start before)
        ((start + ((event :: before).map Connect.gap).sum) % 2 ^ 32) event

section Connects
variable {cfg : TokenBucketCfg} {period : Int} {concurrent start : Nat} {events : List Connect}

/-- A client that is seen for the first time -/
def freshClient (cfg : TokenBucketCfg) (concurrent start : Nat) : ConnClientStats :=
  ⟨concurrent, tokenBucketCtrInit cfg (start % 2 ^ 32), 0⟩

theorem afterConnects_visited (short : ∀ event ∈ events, event.gap ≤ UINT32_MAX / 4) :
    Visited cfg start (events.map Connect.gap)
      (afterConnects period (freshClient cfg concurrent start) start events).connectCount := by
  induction events with
  | nil => exact Visited.init cfg start
  | cons event before ih =>
      have earlier := ih fun e mem => short e (List.mem_cons_of_mem _ mem)
      have next := earlier.take (short event List.mem_cons_self)
      rw [afterConnects, connUpdateOnConnect]
      split <;> exact next

theorem afterConnects_marked (short : ∀ event ∈ events, event.gap ≤ UINT32_MAX / 4)
    (clock : ∀ event ∈ events, 0 < event.approxTime + period + event.offset) :
    (afterConnects period (freshClient cfg concurrent start) start events).markedUntilTs ≠ 0 ↔
      ∃ early ≠ [], early <:+ events.map Connect.gap ∧ Bucket.offered cfg.burst.toNat cfg.rate early ≤ 1 := by
  induction events with
  | nil =>
      constructor
      · intro marked
        exact absurd rfl marked
      · rintro ⟨early, some_, ends, -⟩
        exact absurd (List.suffix_nil.mp ends) some_
  | cons event before ih =>
      have visited : Visited cfg start _ (afterConnects period (freshClient cfg concurrent start) start _).connectCount :=
        afterConnects_visited short
      have earlier := ih (fun e mem => short e (List.mem_cons_of_mem _ mem)) fun e mem => clock e (List.mem_cons_of_mem _ mem)
      have count := visited.counter
      rw [List.map_cons] at count ⊢
      rw [Bucket.exists_early_cons, ← earlier, ← left_eq_zero, ← get_eq_zero, ← count]
      rw [afterConnects, connUpdateOnConnect]
      split
      · rename_i marks
        have later := clock event List.mem_cons_self
        exact ⟨fun _ => .inl marks.1, fun _ => Int.ne_of_gt later⟩
      · rename_i kept
        constructor
        · exact .inr
        · rintro (zero | marked)
          · exact fun unmarked => kept ⟨zero, unmarked⟩
          · exact marked

/-- A client is marked for connecting too fast exactly when some stretch of its connections has as many as the burst
and the rate allow for in the time it takes. -/
theorem client_marked_iff (cfg : TokenBucketCfg) (concurrent start : Nat)
    (short : ∀ event ∈ events, event.gap ≤ UINT32_MAX / 4)
    (clock : ∀ event ∈ events, 0 < event.approxTime + period + event.offset) :
    (afterConnects period (freshClient cfg concurrent start) start events).markedUntilTs ≠ 0 ↔
      ∃ stretch, stretch ≠ [] ∧ stretch <:+: events.map Connect.gap ∧
        cfg.burst.toNat + cfg.rate * stretch.dropLast.sum ≤ stretch.length := by
  rw [afterConnects_marked short clock, Bucket.exists_offered_le_iff]
  constructor
  · rintro ⟨stretch, part, some_, dense⟩
    exact ⟨stretch, some_, part, Nat.le_of_lt_succ dense⟩
  · rintro ⟨stretch, some_, part, dense⟩
    exact ⟨stretch, part, some_, Nat.lt_succ_of_le dense⟩

def tight : TokenBucketCfg := ⟨2, 2, by decide, by decide, by decide, by decide⟩

theorem tight_client_marked :
    (afterConnects 60 (freshClient tight 0 7) 7 [⟨0, 1000, 1⟩, ⟨5, 1000, 2⟩]).markedUntilTs ≠ 0 :=
  (client_marked_iff tight 0 7 (by decide) (by decide)).mpr
    ⟨[0, 5], by decide, List.infix_refl _, by decide⟩

end Connects

/-! ## Introductions and streams of a circuit -/

/-- An `or_circuit_t` with its two limits -/
structure OrCircuit where
  isIntroPoint : Bool
  introduce2DosDefenseEnabled : Bool
  introduce2Bucket : TokenBucketCtr
  streamLimiter : TokenBucketCtr

/-- `hs_dos_can_send_intro2` -/
def hsDosCanSendIntro2 (circ : OrCircuit) (nowTsSec : Nat) : OrCircuit × Bool :=
  if !circ.introduce2DosDefenseEnabled then (circ, true)
  else if !circ.isIntroPoint then (circ, false)
  else
    let introduce2Bucket := tokenBucketCtrTake (tokenBucketCtrRefill circ.introduce2Bucket nowTsSec)
    ({ circ with introduce2Bucket }, 0 < tokenBucketRawGet introduce2Bucket.counter)

/-- `dos_stream_new_begin_or_resolve_cell`, while it is enabled: a cell that is not let through is counted as rejected,
and gets the defense that is configured. -/
def dosStreamNewBeginOrResolveCell (circ : OrCircuit) (nowTsSec : Nat) : OrCircuit × Bool :=
  let streamLimiter := tokenBucketCtrRefill circ.streamLimiter nowTsSec
  if 0 < tokenBucketRawGet streamLimiter.counter then
    ({ circ with streamLimiter := { streamLimiter with counter := (tokenBucketRawDec streamLimiter.counter 1).1 } }, true)
  else ({ circ with streamLimiter }, false)

/-- A circuit after cells at the end of each of these gaps, and what was let through, the latest first. -/
def afterCells (cell : OrCircuit → Nat → OrCircuit × Bool) (circ : OrCircuit) (start : Nat) :
    List Nat → OrCircuit × List Bool
  | [] => (circ, [])
  | gap :: before =>
      let (circ, through) := afterCells cell circ start before
      let (circ, passed) := cell circ ((start + (gap :: before).sum) % 2 ^ 32)
      (circ, passed :: through)

theorem afterCells_cons (cell : OrCircuit → Nat → OrCircuit × Bool) (circ : OrCircuit) (start gap : Nat)
    (before : List Nat) : afterCells cell circ start (gap :: before) =
      ((cell (afterCells cell circ start before).1 ((start + (gap :: before).sum) % 2 ^ 32)).1,
        (cell (afterCells cell circ start before).1 ((start + (gap :: before).sum) % 2 ^ 32)).2 ::
          (afterCells cell circ start before).2) := rfl

section Circuits
variable {cfg : TokenBucketCfg} {start : Nat} {gaps : List Nat} {circ : OrCircuit}

theorem hsDosCanSendIntro2_after (intro_ : circ.isIntroPoint) (enabled : circ.introduce2DosDefenseEnabled)
    (full : circ.introduce2Bucket = tokenBucketCtrInit cfg (start % 2 ^ 32)) (short :
      ∀ gap ∈ gaps, gap ≤ UINT32_MAX / 4) :
    (afterCells hsDosCanSendIntro2 circ start gaps).1.isIntroPoint ∧
      (afterCells hsDosCanSendIntro2 circ start gaps).1.introduce2DosDefenseEnabled ∧
      Visited cfg start gaps (afterCells hsDosCanSendIntro2 circ start gaps).1.introduce2Bucket ∧
      (afterCells hsDosCanSendIntro2 circ start gaps).2 = Bucket.answers cfg.burst.toNat cfg.rate 1 gaps := by
  induction gaps with
  | nil => exact ⟨intro_, enabled, full ▸ Visited.init cfg start, rfl⟩
  | cons gap before ih =>
      obtain ⟨isIntro, isEnabled, visited, through⟩ := ih fun g mem => short g (List.mem_cons_of_mem _ mem)
      have next := visited.take (short gap List.mem_cons_self)
      simp only [afterCells, hsDosCanSendIntro2, isIntro, isEnabled, Bool.not_true, Bool.false_eq_true, if_false,
        Bucket.answers]
      refine ⟨trivial, trivial, next, ?_⟩
      rw [through, next.counter]
      congr 1
      rw [decide_eq_decide, Nat.pos_iff_ne_zero, Ne, get_eq_zero, left_eq_zero, Nat.not_le]

theorem dosStreamNewBeginOrResolveCell_eq (circ : OrCircuit) (now : Nat) :
    dosStreamNewBeginOrResolveCell circ now =
      ({ circ with streamLimiter := tokenBucketCtrTake (tokenBucketCtrRefill circ.streamLimiter now) },
        decide (0 < tokenBucketRawGet (tokenBucketCtrRefill circ.streamLimiter now).counter)) := by
  rw [dosStreamNewBeginOrResolveCell, tokenBucketCtrTake]
  generalize tokenBucketCtrRefill circ.streamLimiter now = streamLimiter
  by_cases some_ : 0 < tokenBucketRawGet streamLimiter.counter
  · rw [if_pos some_, if_pos some_, decide_eq_true some_]
  · rw [if_neg some_, if_neg some_, decide_eq_false some_]

theorem dosStreamNewBeginOrResolveCell_after (full : circ.streamLimiter = tokenBucketCtrInit cfg (start % 2 ^ 32))
    (short : ∀ gap ∈ gaps, gap ≤ UINT32_MAX / 4) :
    Visited cfg start gaps (afterCells dosStreamNewBeginOrResolveCell circ start gaps).1.streamLimiter ∧
      (afterCells dosStreamNewBeginOrResolveCell circ start gaps).2 = Bucket.answers cfg.burst.toNat cfg.rate 0 gaps := by
  induction gaps with
  | nil => exact ⟨full ▸ Visited.init cfg start, rfl⟩
  | cons gap before ih =>
      obtain ⟨visited, through⟩ := ih fun g mem => short g (List.mem_cons_of_mem _ mem)
      have found := visited.refill (short gap List.mem_cons_self)
      rw [afterCells_cons, dosStreamNewBeginOrResolveCell_eq]
      refine ⟨visited.take (short gap List.mem_cons_self), ?_⟩
      have positive (tokens : Nat) : decide (0 < tokenBucketRawGet tokens) = decide (0 < tokens) := by
        rw [decide_eq_decide, Nat.pos_iff_ne_zero, Nat.pos_iff_ne_zero, Ne, get_eq_zero]
      rw [through, Bucket.answers, found, positive]

/-- An introduction point refuses an introduction exactly where some stretch of them has as many as the burst and the
rate allow for, and the ones that it lets through never exceed what these give in their time. -/
theorem introductions_limited (intro_ : circ.isIntroPoint) (enabled : circ.introduce2DosDefenseEnabled)
    (full : circ.introduce2Bucket = tokenBucketCtrInit cfg (start % 2 ^ 32)) (short :
      ∀ gap ∈ gaps, gap ≤ UINT32_MAX / 4) :
    (false ∈ (afterCells hsDosCanSendIntro2 circ start gaps).2 ↔ ∃ stretch, stretch <:+: gaps ∧ stretch ≠ [] ∧
      cfg.burst.toNat + cfg.rate * stretch.dropLast.sum < stretch.length + 1) ∧
    ∀ k, ((afterCells hsDosCanSendIntro2 circ start gaps).2.take k).count true ≤
      cfg.burst.toNat + cfg.rate * (gaps.take k).sum := by
  obtain ⟨-, -, -, through⟩ := hsDosCanSendIntro2_after intro_ enabled full short
  rw [through]
  exact ⟨Bucket.false_mem_answers_iff, Bucket.count_answers_le gaps⟩

/-- A circuit's streams are refused exactly where some stretch of them has more than the burst and the rate allow for,
and the ones that are let through never exceed what these give in their time. -/
theorem streams_limited (full : circ.streamLimiter = tokenBucketCtrInit cfg (start % 2 ^ 32))
    (short : ∀ gap ∈ gaps, gap ≤ UINT32_MAX / 4) :
    (false ∈ (afterCells dosStreamNewBeginOrResolveCell circ start gaps).2 ↔ ∃ stretch, stretch <:+: gaps ∧
      stretch ≠ [] ∧ cfg.burst.toNat + cfg.rate * stretch.dropLast.sum < stretch.length) ∧
    ∀ k, ((afterCells dosStreamNewBeginOrResolveCell circ start gaps).2.take k).count true ≤
      cfg.burst.toNat + cfg.rate * (gaps.take k).sum := by
  obtain ⟨-, through⟩ := dosStreamNewBeginOrResolveCell_after full short
  rw [through]
  exact ⟨Bucket.false_mem_answers_iff, Bucket.count_answers_le gaps⟩

def tightCircuit : OrCircuit := ⟨true, true, tokenBucketCtrInit tight 7, tokenBucketCtrInit tight 7⟩

theorem tight_introductions :
    ((afterCells hsDosCanSendIntro2 tightCircuit 7 [3, 0, 0]).2.take 2).count true ≤ 2 + 2 * 3 :=
  (introductions_limited rfl rfl
    (show tightCircuit.introduce2Bucket = tokenBucketCtrInit tight (7 % 2 ^ 32) from rfl) (by decide)).2 2

theorem tight_streams :
    ((afterCells dosStreamNewBeginOrResolveCell tightCircuit 7 [3, 0, 0]).2.take 2).count true ≤ 2 + 2 * 3 :=
  (streams_limited (show tightCircuit.streamLimiter = tokenBucketCtrInit tight (7 % 2 ^ 32) from rfl) (by decide)).2 2

end Circuits

/-! ## Circuits of a client -/

/-- The parameters `dos_cc_*` -/
structure CcParams where
  circuitRate : Nat
  circuitBurst : Nat
  minConcurrentConn : Nat
  defenseTimePeriod : Int
  rate_pos : 1 ≤ circuitRate
  burst_le : circuitBurst ≤ UINT32_MAX

/-- `cc_client_stats_t` -/
structure CcClientStats where
  circuitBucket : Nat
  lastCircBucketRefillTs : Int
  markedUntilTs : Int

/-- `num_token` in `cc_stats_refill_bucket` -/
def numToken (p : CcParams) (stats : CcClientStats) (now : Int) : Nat :=
  if stats.lastCircBucketRefillTs = 0 then p.circuitBurst
  else if now < stats.lastCircBucketRefillTs then p.circuitBurst
  else
    let elapsed := (now - stats.lastCircBucketRefillTs).toNat
    if UINT32_MAX < elapsed then p.circuitBurst else elapsed * p.circuitRate

/-- `cc_stats_refill_bucket` -/
def ccStatsRefillBucket (p : CcParams) (stats : CcClientStats) (now : Int) : CcClientStats :=
  if now = stats.lastCircBucketRefillTs then stats
  else
    { stats with
      circuitBucket :=
        if UINT32_MAX - stats.circuitBucket < numToken p stats now then p.circuitBurst
        else min (stats.circuitBucket + numToken p stats now) p.circuitBurst
      lastCircBucketRefillTs := now }

/-- A CREATE cell: the seconds since the one before it, the connections of its client, the random part of the mark. -/
structure Create where
  gap : Nat
  concurrentCount : Nat
  offset : Int

/-- `dos_cc_new_create_cell`, for a client in the cache, while it is enabled. -/
def dosCcNewCreateCell (p : CcParams) (stats : CcClientStats) (now : Int) (event : Create) : CcClientStats :=
  let stats := ccStatsRefillBucket p stats now
  let stats := { stats with circuitBucket := stats.circuitBucket - 1 }
  if stats.circuitBucket = 0 ∧ p.minConcurrentConn ≤ event.concurrentCount then
    { stats with markedUntilTs := now + p.defenseTimePeriod + event.offset }
  else stats

/-- The statistics of a client that is seen for the first time after the start, after CREATE cells, the latest first -/
def afterCreates (p : CcParams) (start : Nat) : List Create → CcClientStats
  | [] => ⟨0, 0, 0⟩
  | event :: before =>
      dosCcNewCreateCell p (afterCreates p start before) (start + ((event :: before).map Create.gap).sum : Nat) event

section Creates
variable {p : CcParams} {start : Nat} {events : List Create} {event : Create}

theorem refilled_bucket {level burst rate gap : Nat} (below : level ≤ burst) (top : burst ≤ UINT32_MAX)
    (positive : 1 ≤ rate) :
    (if UINT32_MAX - level < (if UINT32_MAX < gap then burst else gap * rate) then burst
      else min (level + if UINT32_MAX < gap then burst else gap * rate) burst) = min burst (level + gap * rate) := by
  have more : gap ≤ gap * rate := Nat.le_mul_of_pos_right _ positive
  generalize gap * rate = tokens at *
  by_cases far : UINT32_MAX < gap
  · rw [if_pos far]
    split <;> omega
  · rw [if_neg far]
    split <;> omega

theorem refill_offered (later : 0 < start) (event : Create) (before : List Create)
    (known : before ≠ [] → (afterCreates p start before).circuitBucket =
        Bucket.left p.circuitBurst p.circuitRate (before.map Create.gap) ∧
      (afterCreates p start before).lastCircBucketRefillTs = (start + (before.map Create.gap).sum : Nat)) :
    ccStatsRefillBucket p (afterCreates p start before) (start + ((event :: before).map Create.gap).sum : Nat) =
      ⟨Bucket.offered p.circuitBurst p.circuitRate ((event :: before).map Create.gap),
        (start + ((event :: before).map Create.gap).sum : Nat), (afterCreates p start before).markedUntilTs⟩ := by
  have top := p.burst_le
  have positive := p.rate_pos
  rw [ccStatsRefillBucket, numToken, List.map_cons, List.sum_cons, Bucket.offered]
  by_cases first : before = []
  · subst first
    simp only [afterCreates, List.map_nil, List.sum_nil, Nat.add_zero, Bucket.left, if_pos]
    rw [if_neg (by omega), Nat.zero_add, Nat.min_eq_left (Nat.le_add_right _ _), Nat.min_self, if_neg (by omega)]
  · obtain ⟨bucket, last⟩ := known first
    have below := Bucket.left_le p.circuitBurst p.circuitRate (before.map Create.gap)
    have elapsed : (((start + (event.gap + (before.map Create.gap).sum) : Nat) : Int) -
        (start + (before.map Create.gap).sum : Nat)).toNat = event.gap := by omega
    have some_ : ¬ ((start + (before.map Create.gap).sum : Nat) : Int) = 0 := by omega
    have forward : ¬ ((start + (event.gap + (before.map Create.gap).sum) : Nat) : Int) <
        (start + (before.map Create.gap).sum : Nat) := by omega
    rw [bucket, last, if_neg some_, if_neg forward, elapsed, Nat.mul_comm p.circuitRate]
    generalize Bucket.left p.circuitBurst p.circuitRate (before.map Create.gap) = level at *
    split
    · rename_i same
      have none : event.gap = 0 := by omega
      rw [none, Nat.zero_mul, Nat.add_zero, Nat.min_eq_right below, ← bucket, Nat.zero_add, ← last]
    · dsimp only
      rw [refilled_bucket below top positive]

theorem afterCreates_left (later : 0 < start) (some_ : events ≠ []) :
    (afterCreates p start events).circuitBucket = Bucket.left p.circuitBurst p.circuitRate (events.map Create.gap) ∧
      (afterCreates p start events).lastCircBucketRefillTs = (start + (events.map Create.gap).sum : Nat) := by
  induction events with
  | nil => exact absurd rfl some_
  | cons event before ih =>
      rw [afterCreates, dosCcNewCreateCell, refill_offered later event before ih]
      dsimp only
      split <;> exact ⟨rfl, rfl⟩

/-- A client that has many connections is marked for its circuits exactly when some stretch of them has as many as the
burst and the rate allow for in the time it takes. -/
theorem circuit_client_marked_iff (later : 0 < start)
    (many : ∀ event ∈ events, p.minConcurrentConn ≤ event.concurrentCount)
    (clock : ∀ event ∈ events, 0 < p.defenseTimePeriod + event.offset) :
    (afterCreates p start events).markedUntilTs ≠ 0 ↔
      ∃ stretch, stretch <:+: events.map Create.gap ∧ stretch ≠ [] ∧
        p.circuitBurst + p.circuitRate * stretch.dropLast.sum < stretch.length + 1 := by
  refine Iff.trans ?_ Bucket.exists_offered_le_iff
  induction events with
  | nil =>
      constructor
      · intro marked
        exact absurd rfl marked
      · rintro ⟨early, some_, ends, -⟩
        exact absurd (List.suffix_nil.mp ends) some_
  | cons event before ih =>
      have earlier := ih (fun e mem => many e (List.mem_cons_of_mem _ mem)) fun e mem => clock e (List.mem_cons_of_mem _ mem)
      have busy := many event List.mem_cons_self
      have positive := clock event List.mem_cons_self
      rw [List.map_cons, Bucket.exists_early_cons, ← earlier, afterCreates, dosCcNewCreateCell,
        refill_offered later event before (afterCreates_left later)]
      dsimp only
      rw [List.map_cons]
      have few_iff {found : Nat} : found - 1 = 0 ↔ found ≤ 1 := Nat.sub_eq_zero_iff_le
      split
      · rename_i marks
        have set : (start + (event.gap :: before.map Create.gap).sum : Nat) + p.defenseTimePeriod + event.offset ≠ 0 :=
          by omega
        exact ⟨fun _ => .inl (few_iff.mp marks.1), fun _ => set⟩
      · rename_i kept
        constructor
        · exact .inr
        · rintro (few | marked)
          · exact absurd ⟨few_iff.mpr few, busy⟩ kept
          · exact marked

def tightCircuits : CcParams := ⟨3, 2, 1, 3600, by decide, by decide⟩

theorem tight_circuits_marked : (afterCreates tightCircuits 1000 [⟨0, 1, 1⟩, ⟨5, 2, 1⟩]).markedUntilTs ≠ 0 :=
  (circuit_client_marked_iff (by decide) (by decide) (by decide)).mpr
    ⟨[0, 5], List.infix_refl _, List.cons_ne_nil _ _, by decide⟩

end Creates

end TorJet.Dos
