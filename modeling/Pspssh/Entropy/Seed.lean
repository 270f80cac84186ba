import Pspssh.Data.Sha256

namespace Pspssh.Entropy

open Pspssh.Data

/-! The seed for random numbers, drawn from how long a little work takes. -/

abbrev samples : Nat := 512

abbrev minDistinct : Nat := 64

abbrev digestSize : Nat := 32

/-- The hash that the seed is collected in: `wc_Sha256Update` and
`wc_Sha256GetHash` on a state that `wc_InitSha256` has set up. -/
class Sha256 where
  Pool : Type
  init : Pool
  update : Pool → List UInt8 → Pool
  getHash : Pool → Vector UInt8 digestSize

/-- What the console answers while the seed is made. The times are those of
`sceKernelGetSystemTimeWide` around each sample. -/
structure Readings where
  now : UInt64
  -- nothing where `sceRtcGetCurrentTick` fails
  tick : Option UInt64
  stackAddress : UInt32
  thread : Int32
  before : Nat → UInt64
  after : Nat → UInt64
  -- whether each call of `wc_InitSha256` works
  initWorks : Nat → Bool

structure Seed where
  value : Int
  written : List UInt8

def bytes32 (value : UInt32) : List UInt8 :=
  (List.range 4).map fun i => (value >>> (8 * i).toUInt32).toUInt8

def bytes64 (value : UInt64) : List UInt8 :=
  (List.range 8).map fun i => (value >>> (8 * i).toUInt64).toUInt8

/-- How much work a sample times: the argument of `wobble`. -/
def workRounds (i : Nat) : Nat :=
  64 + (i &&& 31)

def Readings.delta (readings : Readings) (i : Nat) : UInt64 :=
  readings.after i - readings.before i

section Model

variable [Sha256]

structure Harvest where
  pool : Sha256.Pool
  deltaPrevious : UInt64
  distinct : Nat

def mix (pool : Sha256.Pool) (data : List UInt8) : Sha256.Pool :=
  Sha256.update pool data

/-- The pool after what differs between boots and between machines. -/
def start (readings : Readings) : Sha256.Pool :=
  let pool := mix Sha256.init (bytes64 readings.now)
  let pool :=
    match readings.tick with
    | none => pool
    | some tick => mix pool (bytes64 tick)
  let pool := mix pool (bytes32 readings.stackAddress)
  mix pool (bytes32 readings.thread.toUInt32)

def sample (readings : Readings) (harvest : Harvest) (i : Nat) : Harvest :=
  let delta := readings.delta i
  let pool := mix harvest.pool (bytes64 (readings.after i))
  { pool := mix pool (bytes64 delta)
    deltaPrevious := delta
    distinct :=
      if 0 < i ∧ delta ≠ harvest.deltaPrevious then harvest.distinct + 1
      else harvest.distinct }

def harvest (readings : Readings) : Harvest :=
  (List.range samples).foldl (sample readings)
    { pool := start readings, deltaPrevious := 0, distinct := 0 }

/-- The loop that fills the output; `calls` counts those of `wc_InitSha256`. -/
def expand (readings : Readings) (size : Nat) (pool : Sha256.Pool) (calls : Nat)
    (written : List UInt8) : Seed :=
  if written.length < size then
    if readings.initWorks calls then
      let copy := Sha256.update Sha256.init
        (bytes64 written.length.toUInt64)
      let copy := Sha256.update copy (Sha256.getHash pool).toList
      let block := Sha256.getHash copy
      let take := min (size - written.length) digestSize
      expand readings size (mix pool block.toList) (calls + 1)
        (written ++ block.toList.take take)
    else { value := -1, written }
  else { value := 0, written }
termination_by size - written.length
decreasing_by
  rw [List.length_append, List.length_take, Vector.length_toList]
  simp only [digestSize]
  omega

/-- `pspssh_generate_seed`; `output` tells whether it is not `NULL`. -/
def generateSeed (readings : Readings) (output : Bool) (size : UInt32) : Seed :=
  if ¬ output ∨ size = 0 then { value := -1, written := [] }
  else if ¬ readings.initWorks 0 then { value := -1, written := [] }
  else
    let harvest := harvest readings
    if harvest.distinct < minDistinct then { value := -1, written := [] }
    else
      let pool := mix harvest.pool (bytes32 harvest.distinct.toUInt32)
      expand readings size.toNat pool 1 []

/-! ## What the health check counts -/

theorem harvest_samples (readings : Readings) (first : Harvest) (n : Nat) :
    let harvest := (List.range (n + 1)).foldl (sample readings) first
    harvest.deltaPrevious = readings.delta n ∧
      harvest.distinct = first.distinct +
        Nat.count (fun i => readings.delta (i + 1) ≠ readings.delta i) n := by
  induction n with
  | zero => simp [sample]
  | succ n ih =>
      obtain ⟨previous, counted⟩ := ih
      dsimp only at previous counted ⊢
      rw [List.range_succ, List.foldl_append, List.foldl_cons, List.foldl_nil]
      refine ⟨rfl, ?_⟩
      simp only [sample, previous, counted, Nat.zero_lt_succ, true_and,
        Nat.count_succ]
      split <;> rfl

theorem harvest_distinct (readings : Readings) :
    (harvest readings).distinct =
      Nat.count (fun i => readings.delta (i + 1) ≠ readings.delta i) 511 := by
  have counted := (harvest_samples readings
    { pool := start readings, deltaPrevious := 0, distinct := 0 } 511).2
  rw [Nat.zero_add] at counted
  exact counted

theorem expand_filled {readings : Readings}
    (works : ∀ call, readings.initWorks call = true) {size : Nat}
    (pool : Sha256.Pool) (calls : Nat) {written : List UInt8}
    (within : written.length ≤ size) :
    (expand readings size pool calls written).value = 0 ∧
      (expand readings size pool calls written).written.length = size := by
  fun_induction expand readings size pool calls written with
  | case1 pool calls written more _ copy keyed block take ih =>
      apply ih
      simp only [take, List.length_append, List.length_take,
        Vector.length_toList, digestSize]
      omega
  | case2 pool calls written more fails => exact absurd (works calls) fails
  | case3 pool calls written full => exact ⟨rfl, by dsimp only; omega⟩

theorem generateSeed_filled {readings : Readings}
    (works : ∀ call, readings.initWorks call = true) {size : UInt32}
    (some_bytes : size ≠ 0)
    (enough : minDistinct ≤ (harvest readings).distinct) :
    (generateSeed readings true size).value = 0 ∧
      (generateSeed readings true size).written.length = size.toNat := by
  unfold generateSeed
  rw [if_neg (by simpa using some_bytes), if_neg (by simp [works])]
  dsimp only
  rw [if_neg (Nat.not_lt.mpr enough)]
  exact expand_filled works _ _ (Nat.zero_le size.toNat)

/-- The seed could not be produced, and the caller's buffer is as it was. -/
def Refused (seed : Seed) : Prop :=
  seed.value ≠ 0 ∧ seed.written = []

theorem generateSeed_refused_iff {readings : Readings}
    (works : ∀ call, readings.initWorks call = true) (output : Bool)
    (size : UInt32) :
    Refused (generateSeed readings output size) ↔
      output = false ∨ size = 0 ∨ (harvest readings).distinct < minDistinct := by
  constructor
  · intro refused
    by_contra granted
    simp only [not_or, Bool.not_eq_false, Nat.not_lt] at granted
    obtain ⟨rfl, some_bytes, enough⟩ := granted
    exact refused.1 (generateSeed_filled works some_bytes enough).1
  · rintro (missing | empty | few)
    · simp [generateSeed, Refused, missing]
    · simp [generateSeed, Refused, empty]
    · unfold generateSeed
      split
      · simp [Refused]
      · simp [Refused, works, few]

end Model

/-! ## A clock that only tells how much work was done -/

theorem count_congr {p q : Nat → Prop} [DecidablePred p] [DecidablePred q]
    {n : Nat} (agree : ∀ k < n, p k ↔ q k) : Nat.count p n = Nat.count q n :=
  Nat.le_antisymm (Nat.count_mono_left fun k below => (agree k below).mp)
    (Nat.count_mono_left fun k below => (agree k below).mpr)

theorem count_periods {p : Nat → Prop} [DecidablePred p] {period : Nat}
    (periodic : Function.Periodic p period) (n : Nat) :
    Nat.count p (n * period) = n * Nat.count p period := by
  induction n with
  | zero => simp
  | succ n ih =>
      have again (k : Nat) : p (n * period + k) ↔ p k := by
        rw [Nat.add_comm]
        exact iff_of_eq (periodic.nat_mul n k)
      rw [Nat.succ_mul, Nat.count_add, ih, count_congr fun k _ => again k,
        Nat.succ_mul]

theorem workRounds_eq (i : Nat) : workRounds i = 64 + i % 32 := by
  rw [workRounds, Nat.and_two_pow_sub_one_eq_mod i 5]

/-- How often the cost of the work changes while the work grows from `64`
rounds to `95`. -/
def changes (cost : Nat → Nat) : Nat :=
  Nat.count (fun j => cost (64 + j + 1) ≠ cost (64 + j)) 31

theorem cost_changes (cost : Nat → Nat) :
    Nat.count (fun i => cost (workRounds (i + 1)) ≠ cost (workRounds i)) 511 =
      16 * changes cost + 15 * (if cost 64 ≠ cost 95 then 1 else 0) := by
  have periodic : Function.Periodic
      (fun i => cost (workRounds (i + 1)) ≠ cost (workRounds i)) 32 := by
    intro i
    simp only [workRounds_eq, Nat.add_right_comm i 32 1, Nat.add_mod_right]
  have rising : Nat.count
      (fun i => cost (workRounds (i + 1)) ≠ cost (workRounds i)) 31 =
        changes cost := by
    apply count_congr
    intro j below
    rw [workRounds_eq, workRounds_eq, Nat.mod_eq_of_lt (by omega),
      Nat.mod_eq_of_lt (by omega), Nat.add_assoc]
  have split : 511 = 31 + 15 * 32 := rfl
  rw [split, Nat.count_add', count_periods periodic, Nat.count_succ _ 31, rising]
  have shifted : Nat.count (fun k => cost (workRounds (k + 15 * 32 + 1)) ≠
      cost (workRounds (k + 15 * 32))) 31 = changes cost := by
    rw [← rising]
    apply count_congr
    intro k _
    exact iff_of_eq (periodic.nat_mul 15 k)
  rw [shifted]
  have wrap : workRounds (31 + 1) = 64 ∧ workRounds 31 = 95 := ⟨rfl, rfl⟩
  rw [wrap.1, wrap.2]
  omega

theorem timed_distinct [Sha256] {readings : Readings} {cost : Nat → Nat}
    (timed : ∀ i < samples, (readings.delta i).toNat = cost (workRounds i)) :
    (harvest readings).distinct =
      16 * changes cost + 15 * (if cost 64 ≠ cost 95 then 1 else 0) := by
  rw [harvest_distinct, ← cost_changes]
  apply count_congr
  intro i below
  rw [← timed (i + 1) (by simp only [samples]; omega),
    ← timed i (by simp only [samples]; omega), Ne, Ne, UInt64.toNat_inj]

theorem jitterless_clock_refused_iff [Sha256] {readings : Readings}
    {cost : Nat → Nat} (works : ∀ call, readings.initWorks call = true)
    (timed : ∀ i < samples, (readings.delta i).toNat = cost (workRounds i))
    (output : Bool) (size : UInt32) :
    Refused (generateSeed readings output size) ↔
      output = false ∨ size = 0 ∨ changes cost ≤ 3 := by
  rw [generateSeed_refused_iff works, timed_distinct timed]
  have bound : 16 * changes cost + 15 * (if cost 64 ≠ cost 95 then 1 else 0) <
      minDistinct ↔ changes cost ≤ 3 := by
    simp only [minDistinct]
    split <;> omega
  rw [bound]

@[reducible] def sha256 : Sha256 where
  Pool := List UInt8
  init := []
  update pool data := pool ++ data
  getHash := Data.Sha256.digest

/-- A console on which a sample starts every millisecond and takes what the
work costs, in microseconds. -/
def steady (cost : Nat → Nat) : Readings where
  now := 0
  tick := some 0
  stackAddress := 0
  thread := 0
  before i := (1000 * i).toUInt64
  after i := (1000 * i).toUInt64 + (cost (workRounds i)).toUInt64
  initWorks _ := true

theorem steady_delta {cost : Nat → Nat} {i : Nat}
    (short : cost (workRounds i) < 2 ^ 64) :
    ((steady cost).delta i).toNat = cost (workRounds i) := by
  have cancel : (steady cost).delta i = (cost (workRounds i)).toUInt64 :=
    add_sub_cancel_left _ _
  rw [cancel]
  exact Nat.mod_eq_of_lt short

theorem workRounds_lt (i : Nat) : workRounds i < 96 := by
  rw [workRounds_eq]
  have wraps := Nat.mod_lt i (show 0 < 32 by decide)
  omega

theorem stuck_clock_refused :
    letI := sha256
    Refused (generateSeed (steady fun _ => 7) true 32) := by
  let hash : Sha256 := sha256
  have constant : changes (fun _ => 7) ≤ 3 := by decide
  have timed : ∀ i < samples, ((steady fun _ => 7).delta i).toNat = 7 :=
    fun i _ => steady_delta (by norm_num)
  exact (jitterless_clock_refused_iff (fun _ => rfl) timed true 32).mpr
    (.inr (.inr constant))

theorem predictable_clock_seeds :
    letI := sha256
    (∀ call, (steady id).initWorks call = true) ∧
      (∀ i < samples, ((steady id).delta i).toNat = id (workRounds i)) ∧
      (generateSeed (steady id) true 32).value = 0 ∧
      (generateSeed (steady id) true 32).written.length = 32 := by
  let hash : Sha256 := sha256
  have works (call : Nat) : (steady id).initWorks call = true := rfl
  have timed (i : Nat) (_ : i < samples) :
      ((steady id).delta i).toNat = id (workRounds i) := by
    apply steady_delta
    exact (workRounds_lt i).trans (by norm_num)
  have enough : minDistinct ≤ (harvest (steady id)).distinct := by
    rw [timed_distinct timed]
    decide
  exact ⟨works, timed, generateSeed_filled works (by decide) enough⟩

end Pspssh.Entropy
