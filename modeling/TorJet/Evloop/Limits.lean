import TorJet.Base.Bucket
import TorJet.Evloop.TokenBucket

/-!
# Limits of connections

What a connection may read and write (`core/mainloop/connection.c`), and what all connections together do by that.
-/

namespace TorJet.Evloop
open Base

/-! ## Connections -/

inductive ConnType
  | or
  | exit
  | ap
  | dir
  | other
  deriving DecidableEq

/-- A `connection_t`, as far as it is limited; an address without a family counts as internal. -/
structure Connection where
  type : ConnType
  isOpen : Bool
  linked : Bool
  alwaysRateLimitAsRemote : Bool
  isInternal : Bool
  clientUsed : Int
  isServer : Bool
  wideCircIds : Bool
  outbufLen : Nat
  bucket : TokenBucketRw

/-- `global_bucket`, `global_relayed_bucket` and `last_refilled_global_buckets_ts` -/
structure Globals where
  globalBucket : TokenBucketRw
  globalRelayedBucket : TokenBucketRw
  lastRefilledTs : Nat

def connectionIsRateLimited (countPrivateBandwidth : Bool) (conn : Connection) : Bool :=
  !conn.linked && (countPrivateBandwidth || conn.alwaysRateLimitAsRemote || !conn.isInternal)

def CLIENT_IDLE_TIME_FOR_PRIORITY : Int := 30

def connectionCountsAsRelayedTraffic (conn : Connection) (now : Int) : Bool :=
  conn.type = .or && conn.clientUsed + CLIENT_IDLE_TIME_FOR_PRIORITY < now || conn.type = .dir && conn.isServer

def connectionBucketGetShare (base : Int) (priority : Bool) (globalBucketVal connBucket : Int) : Int :=
  let numBytesHigh := (if priority then 32 else 16) * base
  let numBytesLow := (if priority then 4 else 2) * base
  let atMost := globalBucketVal.tdiv 8
  let atMost := atMost - atMost.tmod base
  let atMost := if numBytesHigh < atMost then numBytesHigh else if atMost < numBytesLow then numBytesLow else atMost
  let atMost := if globalBucketVal < atMost then globalBucketVal else atMost
  let atMost := if 0 ≤ connBucket ∧ connBucket < atMost then connBucket else atMost
  if atMost < 0 then 0 else atMost

/-- `RELAY_PAYLOAD_SIZE_MAX`, and `get_cell_network_size` where cells are spoken. -/
def shareBase (conn : Connection) : Int :=
  if conn.type = .or then if conn.wideCircIds then 514 else 512 else 498

section Source
variable (countPrivateBandwidth : Bool) (g : Globals) (conn : Connection) (now : Int)

def connectionBucketReadLimit : Int :=
  let globalBucketVal := tokenBucketRawGet g.globalBucket.readBucket
  let connBucket : Int :=
    if conn.type = .or ∧ !conn.isOpen ∨ conn.type = .dir ∨ conn.type = .other then -1
    else tokenBucketRawGet conn.bucket.readBucket
  let priority := conn.type ≠ .dir
  if conn.type = .ap then connBucket
  else if conn.type = .exit then connectionBucketGetShare (shareBase conn) priority globalBucketVal connBucket
  else if !connectionIsRateLimited countPrivateBandwidth conn then if 0 ≤ connBucket then connBucket else 2 ^ 14
  else
    let globalBucketVal :=
      if connectionCountsAsRelayedTraffic conn now then
        min globalBucketVal (tokenBucketRawGet g.globalRelayedBucket.readBucket)
      else globalBucketVal
    connectionBucketGetShare (shareBase conn) priority globalBucketVal connBucket

def connectionBucketWriteLimit : Int :=
  let globalBucketVal := tokenBucketRawGet g.globalBucket.writeBucket
  if !connectionIsRateLimited countPrivateBandwidth conn then conn.outbufLen
  else
    let connBucket :=
      if conn.type = .or ∧ conn.isOpen then min conn.outbufLen (tokenBucketRawGet conn.bucket.writeBucket)
      else conn.outbufLen
    let globalBucketVal :=
      if connectionCountsAsRelayedTraffic conn now then
        min globalBucketVal (tokenBucketRawGet g.globalRelayedBucket.writeBucket)
      else globalBucketVal
    connectionBucketGetShare (shareBase conn) (conn.type ≠ .dir) globalBucketVal connBucket

def tokenBucketRwDec (bucket : TokenBucketRw) (nRead nWritten : Nat) : TokenBucketRw :=
  { bucket with
    readBucket := (tokenBucketRawDec bucket.readBucket nRead).1
    writeBucket := (tokenBucketRawDec bucket.writeBucket nWritten).1 }

/-- A number of bytes from `INT_MAX` on is taken for 1. -/
def inRange (numBytes : Nat) : Nat := if 2 ^ 31 - 1 ≤ numBytes then 1 else numBytes

def connectionBucketsDecrement (numRead numWritten : Nat) : Globals × Connection :=
  let numRead := inRange numRead
  let numWritten := inRange numWritten
  let edge :=
    if (conn.type = .ap ∨ conn.type = .exit) ∧ 0 < numRead then
      { conn with bucket := tokenBucketRwDec conn.bucket numRead 0 }
    else conn
  if !connectionIsRateLimited countPrivateBandwidth conn then (g, edge)
  else
    ({ g with
        globalRelayedBucket :=
          if connectionCountsAsRelayedTraffic conn now then tokenBucketRwDec g.globalRelayedBucket numRead numWritten
          else g.globalRelayedBucket
        globalBucket := tokenBucketRwDec g.globalBucket numRead numWritten },
      if conn.type = .or ∧ conn.isOpen then { edge with bucket := tokenBucketRwDec edge.bucket numRead numWritten }
      else edge)

def connectionBucketRefillSingle (nowTs : Nat) : Globals × Connection :=
  (if nowTs ≠ g.lastRefilledTs then
      ⟨(tokenBucketRwRefill g.globalBucket nowTs).1, (tokenBucketRwRefill g.globalRelayedBucket nowTs).1, nowTs⟩
    else g,
    if conn.type = .or ∧ conn.isOpen ∨ conn.type = .ap ∨ conn.type = .exit then
      { conn with bucket := (tokenBucketRwRefill conn.bucket nowTs).1 }
    else conn)

end Source

/-! ## Runs -/

/-- What happens on a connection, which is as the event says at the time: its buckets are refilled some ticks later, or
bytes are read and written. -/
inductive Event
  | refill (conn : Connection) (ticks : Nat)
  | transfer (conn : Connection) (now : Int) (numRead numWritten : Nat)

/-- The buckets and the ticks so far -/
abbrev Moment := Globals × Nat

section Runs
variable (countPrivate : Bool)

def happen (s : Moment) : Event → Moment
  | .refill conn ticks => ((connectionBucketRefillSingle s.1 conn ((s.2 + ticks) % 2 ^ 32)).1, s.2 + ticks)
  | .transfer conn now numRead numWritten =>
      ((connectionBucketsDecrement countPrivate s.1 conn now numRead numWritten).1, s.2)

/-- The bytes that an event takes from a bucket -/
def Event.moved (relayed write : Bool) : Event → Nat
  | .refill _ _ => 0
  | .transfer conn now numRead numWritten =>
      if connectionIsRateLimited countPrivate conn ∧ (relayed → connectionCountsAsRelayedTraffic conn now) then
        if write then numWritten else numRead
      else 0

/-- What the limit lets an event move; an application's connection is limited by its own bucket alone. -/
def Event.limit (s : Moment) (write : Bool) : Event → Int
  | .refill _ _ => 0
  | .transfer conn now _ _ =>
      if write then connectionBucketWriteLimit countPrivate s.1 conn now
      else if conn.type = .ap then 0
      else connectionBucketReadLimit countPrivate s.1 conn now

def moved (relayed write : Bool) (events : List Event) : Nat :=
  (events.map (Event.moved countPrivate relayed write)).sum

/-- What the events of a run move beyond their limits -/
def beyond (relayed write : Bool) : Moment → List Event → Nat
  | _, [] => 0
  | s, event :: events =>
      (event.moved countPrivate relayed write - event.limit countPrivate s write).toNat +
        beyond relayed write (happen countPrivate s event) events

def Globals.level (g : Globals) (relayed write : Bool) : Int :=
  if relayed then if write then g.globalRelayedBucket.writeBucket else g.globalRelayedBucket.readBucket
  else if write then g.globalBucket.writeBucket else g.globalBucket.readBucket

def Globals.cfg (g : Globals) (relayed : Bool) : TokenBucketCfg :=
  if relayed then g.globalRelayedBucket.cfg else g.globalBucket.cfg

/-- No event is larger than the numbers the buckets are kept in, nor takes a bucket below them. -/
def Fits : Moment → List Event → Prop
  | _, [] => True
  | s, event :: events =>
      (∀ relayed write, event.moved countPrivate relayed write < 2 ^ 31 - 1 ∧
        INT32_MIN ≤ s.1.level relayed write - event.moved countPrivate relayed write) ∧
      Fits (happen countPrivate s event) events

variable {countPrivate} {g : Globals} {s : Moment} {event : Event} {relayed write : Bool}

/-! ## Limits -/

theorem share_le {base globalBucketVal connBucket : Int} {priority : Bool} (held : 0 ≤ globalBucketVal) :
    connectionBucketGetShare base priority globalBucketVal connBucket ≤ globalBucketVal := by
  unfold connectionBucketGetShare
  generalize globalBucketVal.tdiv 8 - (globalBucketVal.tdiv 8).tmod base = part
  dsimp only
  split_ifs <;> omega

theorem get_eq (level : Int) : (tokenBucketRawGet level : Int) = max level 0 := by
  rw [tokenBucketRawGet]
  split <;> omega

theorem globalBucketVal_le {counts : Bool} (globalLevel relayedLevel : Int) (charged : relayed → counts) :
    ((if counts then min (tokenBucketRawGet globalLevel) (tokenBucketRawGet relayedLevel)
      else tokenBucketRawGet globalLevel : Nat) : Int) ≤ max (if relayed then relayedLevel else globalLevel) 0 := by
  have globalHeld := get_eq globalLevel
  have relayedHeld := get_eq relayedLevel
  cases counts with
  | false =>
      cases relayed with
      | true => exact absurd (charged rfl) Bool.false_ne_true
      | false => exact Int.le_of_eq globalHeld
  | true =>
      rw [if_pos rfl]
      split <;> omega

/-- What an event takes from a bucket is limited by what the bucket holds. -/
theorem limit_le (charged : event.moved countPrivate relayed write ≠ 0) :
    event.limit countPrivate s write ≤ max (s.1.level relayed write) 0 := by
  cases event with
  | refill conn ticks => exact absurd rfl charged
  | transfer conn now numRead numWritten =>
      obtain ⟨limited, counts⟩ : connectionIsRateLimited countPrivate conn ∧
          (relayed → connectionCountsAsRelayedTraffic conn now) := by
        by_contra none
        exact charged (if_neg none)
      rw [Event.limit, Globals.level]
      cases write with
      | true =>
          simp only [connectionBucketWriteLimit, limited, if_true, Bool.not_true, Bool.false_eq_true, if_false]
          exact Int.le_trans (share_le (Int.natCast_nonneg _)) (globalBucketVal_le _ _ counts)
      | false =>
          simp only [connectionBucketReadLimit, limited, Bool.not_true, Bool.false_eq_true, if_false]
          have held := globalBucketVal_le s.1.globalBucket.readBucket s.1.globalRelayedBucket.readBucket counts
          split
          · exact Int.le_max_right _ _
          · split
            · rename_i type
              have none : connectionCountsAsRelayedTraffic conn now = false := by
                simp [connectionCountsAsRelayedTraffic, type]
              rw [none] at held
              exact Int.le_trans (share_le (Int.natCast_nonneg _)) held
            · exact Int.le_trans (share_le (Int.natCast_nonneg _)) held

/-! ## One event -/

/-- Each bucket has a level that it can have, and was last refilled at one of these ticks. -/
structure Sound (s : Moment) (done : Bool → Nat) : Prop where
  level : ∀ relayed write, IsLevel (s.1.cfg relayed) (s.1.level relayed write)
  global : s.1.globalBucket.lastRefilledAtTimestamp = done false % 2 ^ 32
  relayed : s.1.globalRelayedBucket.lastRefilledAtTimestamp = done true % 2 ^ 32
  past : ∀ relayed, done relayed ≤ s.2

theorem tokenBucketRawDec_eq {level : Int} {n : Nat} (low : INT32_MIN ≤ level - n) (high : level ≤ INT32_MAX) :
    (tokenBucketRawDec level n).1 = level - n := by
  unfold INT32_MIN at low
  unfold INT32_MAX at high
  rw [tokenBucketRawDec, Int.bmod_eq_of_le] <;> omega

/-- A bucket's refill adds so many steps, which fit between the last refills before it and after it. -/
theorem refill_steps {bucket : TokenBucketRw} {done time : Nat} (read : IsLevel bucket.cfg bucket.readBucket)
    (wrote : IsLevel bucket.cfg bucket.writeBucket) (last : bucket.lastRefilledAtTimestamp = done % 2 ^ 32)
    (past : done ≤ time) :
    ∃ steps done', (tokenBucketRwRefill bucket (time % 2 ^ 32)).1 =
      ⟨bucket.cfg, refilled bucket.cfg bucket.readBucket steps,
        refilled bucket.cfg bucket.writeBucket steps, done' % 2 ^ 32⟩ ∧
      done + TICKS_PER_STEP * steps ≤ done' ∧ done' ≤ time := by
  have elapsed : (time % 2 ^ 32 + 2 ^ 32 - bucket.lastRefilledAtTimestamp) % 2 ^ 32 ≤ time - done := by
    rw [last]
    omega
  rw [tokenBucketRwRefill]
  generalize (time % 2 ^ 32 + 2 ^ 32 - bucket.lastRefilledAtTimestamp) % 2 ^ 32 = ticks at elapsed
  dsimp only
  split
  · split
    · refine ⟨0, done, ?_, Nat.le_refl _, past⟩
      rw [refilled_zero read, refilled_zero wrote, ← last]
    · refine ⟨ticks / TICKS_PER_STEP, time, ?_, ?_, Nat.le_refl _⟩
      · rw [tokenBucketRawRefillSteps_eq read, tokenBucketRawRefillSteps_eq wrote]
      · have le := Nat.mul_div_le ticks TICKS_PER_STEP
        omega
  · refine ⟨0, time, ?_, past, Nat.le_refl _⟩
    rw [refilled_zero read, refilled_zero wrote]

variable {done : Bool → Nat} {conn : Connection} {now : Int} {numRead numWritten : Nat}

theorem decrement_globals (conn : Connection) (now : Int) (numRead numWritten : Nat) :
    (connectionBucketsDecrement countPrivate g conn now numRead numWritten).1 =
      { g with
        globalBucket :=
          if connectionIsRateLimited countPrivate conn then
            tokenBucketRwDec g.globalBucket (inRange numRead) (inRange numWritten)
          else g.globalBucket
        globalRelayedBucket :=
          if connectionIsRateLimited countPrivate conn ∧ connectionCountsAsRelayedTraffic conn now then
            tokenBucketRwDec g.globalRelayedBucket (inRange numRead) (inRange numWritten)
          else g.globalRelayedBucket } := by
  rw [connectionBucketsDecrement]
  cases limited : connectionIsRateLimited countPrivate conn <;> simp

/-- What one event does to each bucket: it adds the tokens of some steps, and takes what the event moves. -/
theorem Sound.happen (sound : Sound s done)
    (fits : ∀ relayed write, event.moved countPrivate relayed write < 2 ^ 31 - 1 ∧
      INT32_MIN ≤ s.1.level relayed write - event.moved countPrivate relayed write) :
    ∃ steps done' : Bool → Nat, Sound (happen countPrivate s event) done' ∧ ∀ relayed,
      (Evloop.happen countPrivate s event).1.cfg relayed = s.1.cfg relayed ∧
      done relayed + TICKS_PER_STEP * steps relayed ≤ done' relayed ∧
      ∀ write, (Evloop.happen countPrivate s event).1.level relayed write =
        refilled (s.1.cfg relayed) (s.1.level relayed write) (steps relayed) -
          event.moved countPrivate relayed write := by
  cases event with
  | refill conn ticks =>
      have past (relayed : Bool) : done relayed ≤ s.2 + ticks := Nat.le_trans (sound.past relayed) (Nat.le_add_right _ _)
      have level := sound.level
      rw [Evloop.happen, connectionBucketRefillSingle]
      dsimp only
      split
      · obtain ⟨steps, at_, refill, fits, le⟩ :=
        refill_steps (level false false) (level false true) sound.global (past false)
        obtain ⟨relayedSteps, relayedAt, relayedRefill, relayedFits, relayedLe⟩ :=
          refill_steps (level true false) (level true true) sound.relayed (past true)
        rw [refill, relayedRefill]
        refine ⟨fun relayed => if relayed then relayedSteps else steps, fun relayed => if relayed then relayedAt else at_,
          ⟨fun relayed write => ?_, rfl, rfl, fun relayed => ?_⟩, fun relayed => ⟨?_, ?_, fun write => ?_⟩⟩
        · cases relayed
          · cases write
            · exact refilled_isLevel (level false false) steps
            · exact refilled_isLevel (level false true) steps
          · cases write
            · exact refilled_isLevel (level true false) relayedSteps
            · exact refilled_isLevel (level true true) relayedSteps
        · cases relayed
          · exact le
          · exact relayedLe
        · cases relayed <;> rfl
        · cases relayed
          · exact fits
          · exact relayedFits
        · cases relayed <;> cases write <;> exact (Int.sub_zero _).symm
      · refine ⟨fun _ => 0, done, ⟨level, sound.global, sound.relayed, past⟩,
        fun relayed => ⟨rfl, Nat.le_refl _, fun write => ?_⟩⟩
        rw [refilled_zero (level relayed write)]
        exact (Int.sub_zero _).symm
  | transfer conn now numRead numWritten =>
      have level (relayed write : Bool) :
        (Evloop.happen countPrivate s (.transfer conn now numRead numWritten)).1.level
          relayed write = s.1.level relayed write -
            (Event.transfer conn now numRead numWritten).moved countPrivate relayed write := by
        have fit := fits relayed write
        have high := Int.le_trans (sound.level relayed write).high (s.1.cfg relayed).burst_le
        rw [Evloop.happen, decrement_globals]
        unfold Event.moved at fit ⊢
        dsimp only at fit ⊢
        split at fit
        · rename_i charged
          have dec := tokenBucketRawDec_eq fit.2 high
          have same : inRange (if write then numWritten else numRead) = if write then numWritten else numRead :=
            if_neg (Nat.not_le.mpr fit.1)
          rw [if_pos charged, ← dec]
          clear dec fit fits high
          cases write <;> cases relayed <;>
            simp_all [Globals.level, tokenBucketRwDec]
        · rename_i free
          rw [if_neg free]
          cases relayed with
          | false =>
              have none : ¬ connectionIsRateLimited countPrivate conn := fun limited =>
                free ⟨limited, fun relayed => absurd relayed Bool.false_ne_true⟩
              simp [Globals.level, none]
          | true =>
              have none : ¬ (connectionIsRateLimited countPrivate conn ∧
                  connectionCountsAsRelayedTraffic conn now) := fun both => free ⟨both.1, fun _ => both.2⟩
              simp only [Globals.level, if_neg none, if_true, Int.natCast_zero, Int.sub_zero]
      have cfg (relayed : Bool) :
        (Evloop.happen countPrivate s (.transfer conn now numRead numWritten)).1.cfg relayed =
          s.1.cfg relayed := by
        rw [Evloop.happen, decrement_globals]
        cases relayed <;> simp only [Globals.cfg, Bool.false_eq_true, if_false, if_true] <;> split <;> rfl
      refine ⟨fun _ => 0, done, ⟨fun relayed write => ?_, ?_, ?_, sound.past⟩, fun relayed =>
        ⟨cfg relayed, Nat.le_refl _, fun write => ?_⟩⟩
      · rw [cfg, level]
        have high := (sound.level relayed write).high
        exact ⟨(fits relayed write).2, by omega⟩
      · rw [Evloop.happen, decrement_globals]
        dsimp only
        split <;> exact sound.global
      · rw [Evloop.happen, decrement_globals]
        dsimp only
        split <;> exact sound.relayed
      · rw [level, refilled_zero (sound.level relayed write)]

/-! ## Whole runs -/

theorem time_le (countPrivate : Bool) (s : Moment) (events : List Event) : s.2 ≤
    (events.foldl (Evloop.happen countPrivate) s).2 := by
  induction events generalizing s with
  | nil => exact Nat.le_refl _
  | cons event events ih =>
      apply Nat.le_trans _ (ih _)
      cases event
      · exact Nat.le_add_right _ _
      · exact Nat.le_refl _

theorem Sound.moved_le (events : List Event) (sound : Sound s done) (fits : Fits countPrivate s events)
    (relayed write : Bool) :
    (moved countPrivate relayed write events : Int) ≤ max (s.1.level relayed write) 0 +
      (s.1.cfg relayed).rate *
        (((events.foldl (Evloop.happen countPrivate) s).2 - done relayed) / TICKS_PER_STEP : Nat) +
      beyond countPrivate relayed write s events := by
  induction events generalizing s done with
  | nil =>
      have rates := rate_mul_nonneg (s.1.cfg relayed) ((s.2 - done relayed) / TICKS_PER_STEP)
      have none : moved countPrivate relayed write [] = 0 := rfl
      rw [none, List.foldl_nil, beyond]
      omega
  | cons event events ih =>
      obtain ⟨now, later⟩ := fits
      obtain ⟨steps, done', next, eqs⟩ := sound.happen now
      obtain ⟨cfg, apart, level⟩ := eqs relayed
      have rest := ih next later
      have limit : event.moved countPrivate relayed write ≠ 0 →
          event.limit countPrivate s write ≤ max (s.1.level relayed write) 0 := limit_le
      have past := next.past relayed
      have end_ := time_le countPrivate (Evloop.happen countPrivate s event) events
      have total : moved countPrivate relayed write (event :: events) =
          event.moved countPrivate relayed write + moved countPrivate relayed write events :=
            List.sum_cons
      rw [cfg, level write] at rest
      rw [total, List.foldl_cons, beyond]
      generalize (events.foldl (Evloop.happen countPrivate) (Evloop.happen countPrivate s event)).2 =
        stop
        at rest end_ ⊢
      have split : ((s.1.cfg relayed).rate : Int) * (steps relayed : Nat) +
          (s.1.cfg relayed).rate * ((stop - done' relayed) / TICKS_PER_STEP : Nat) ≤
          (s.1.cfg relayed).rate * ((stop - done relayed) / TICKS_PER_STEP : Nat) := by
        rw [← Int.mul_add]
        apply Int.mul_le_mul_of_nonneg_left _ (Int.natCast_nonneg _)
        unfold TICKS_PER_STEP at apart ⊢
        omega
      have held := Bucket.held_step (s.1.cfg relayed).burst (rate_mul_nonneg (s.1.cfg relayed) (steps relayed)) limit
      rw [refilled] at rest
      rw [Int.natCast_add, Int.natCast_add]
      generalize (s.1.cfg relayed).rate * ((steps relayed : Nat) : Int) = added at *
      omega

end Runs

def relay : Connection := ⟨.or, true, false, false, false, 0, false, true, 900, emptied⟩

def slowGlobals : Globals := ⟨⟨slow, slow.burst, slow.burst, 0⟩, ⟨slow, slow.burst, slow.burst, 0⟩, 0⟩

end TorJet.Evloop
