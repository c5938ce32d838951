/-
  The rate limiter.

  A limiter keeps one bucket for each key it has seen and refills it when the key is asked
  for; a call reads the clock once, also for the bucket it makes, and time and tokens are
  rational numbers. When too many keys are tracked the buckets that had time to refill are
  dropped, and if that is not enough the oldest one, full or not.

  `level` is the number of tokens a key would have if it was asked for now, `capacity` where
  no bucket is kept. It is all that an answer depends on (`Refilled`), and dropping what is
  full changes no level (`makeRoom_spec`); so a limiter that drops buckets and one that keeps
  them all answer alike (`simulates`) until a bucket is forced out that was not full.
-/
import NeuroForge.Lib.Clocked
import NeuroForge.Lib.Dict
import NeuroForge.Lib.TokenBucket
import Mathlib.Algebra.Order.Ring.Rat

namespace NeuroForge

open Transition

structure Bucket where
  tokens : ℚ
  lastRefill : ℚ
deriving DecidableEq

structure RateLimiter where
  capacity : ℚ := 60
  refillPerSecond : ℚ := 1
  maxTrackedKeys : ℕ := 10000
  one_le_capacity : 1 ≤ capacity := by decide
  refill_pos : 0 < refillPerSecond := by decide
  tracks_pos : 0 < maxTrackedKeys := by decide

inductive LimiterOp where
  | allow
  | blocked
deriving DecidableEq

/-- A call of the limiter, with the reading of the clock it takes. -/
structure LimiterCall (κ : Type*) where
  op : LimiterOp
  key : κ
  now : ℚ

abbrev Buckets (κ : Type*) := Dict κ Bucket

namespace RateLimiter

variable {κ : Type*} [DecidableEq κ] (l : RateLimiter)

/-! ## The code -/

def fullAfter : ℚ := l.capacity / l.refillPerSecond

def refillBucket (bucket : Bucket) (now : ℚ) : Bucket where
  tokens := min l.capacity (bucket.tokens + (now - bucket.lastRefill) * l.refillPerSecond)
  lastRefill := now

def dropFull (buckets : Buckets κ) (now : ℚ) : Buckets κ :=
  buckets.filter fun e => now - e.2.lastRefill < l.fullAfter

/-- The first part of `_refilled`: room for a new key. -/
def makeRoom (buckets : Buckets κ) (key : κ) (now : ℚ) : Buckets κ :=
  if key ∉ Dict.keys buckets ∧ l.maxTrackedKeys ≤ buckets.length then
    if l.maxTrackedKeys ≤ (l.dropFull buckets now).length then (l.dropFull buckets now).tail
    else l.dropFull buckets now
  else buckets

/-- The rest of `_refilled`: the bucket of the key, made if need be and refilled. -/
def refillKey (buckets : Buckets κ) (key : κ) (now : ℚ) : Bucket × Buckets κ :=
  let bucket := l.refillBucket ((Dict.get? buckets key).getD ⟨l.capacity, now⟩) now
  (bucket, Dict.set buckets key bucket)

def refilled (buckets : Buckets κ) (key : κ) (now : ℚ) : Bucket × Buckets κ :=
  l.refillKey (l.makeRoom buckets key now) key now

/-- What `allow` does with the refilled bucket. -/
def spend (key : κ) (r : Bucket × Buckets κ) : Bool × Buckets κ :=
  if r.1.tokens < 1 then (false, r.2)
  else (true, Dict.set r.2 key ⟨r.1.tokens - 1, r.1.lastRefill⟩)

def allow (buckets : Buckets κ) (key : κ) (now : ℚ) : Bool × Buckets κ :=
  spend key (l.refilled buckets key now)

/-- What `blocked` does with it. -/
def probe (r : Bucket × Buckets κ) : Bool × Buckets κ := (decide (r.1.tokens < 1), r.2)

def blocked (buckets : Buckets κ) (key : κ) (now : ℚ) : Bool × Buckets κ :=
  probe (l.refilled buckets key now)

def finish (op : LimiterOp) (key : κ) (r : Bucket × Buckets κ) : Bool × Buckets κ :=
  match op with
  | .allow => spend key r
  | .blocked => probe r

/-- A call of the limiter: its answer and the buckets it leaves. -/
def call (buckets : Buckets κ) (c : LimiterCall κ) : Bool × Buckets κ :=
  match c.op with
  | .allow => l.allow buckets c.key c.now
  | .blocked => l.blocked buckets c.key c.now

/-- The same call of a limiter that never drops a bucket. -/
def callKeeping (buckets : Buckets κ) (c : LimiterCall κ) : Bool × Buckets κ :=
  finish c.op c.key (l.refillKey buckets c.key c.now)

theorem call_eq (buckets : Buckets κ) (c : LimiterCall κ) :
    l.call buckets c = finish c.op c.key (l.refilled buckets c.key c.now) := by
  unfold call finish
  cases c.op <;> rfl

def step (buckets : Buckets κ) (c : LimiterCall κ) : Option (Buckets κ) := (l.call buckets c).2

def stepKeeping (buckets : Buckets κ) (c : LimiterCall κ) : Option (Buckets κ) :=
  (l.callKeeping buckets c).2

/-- The answers of a new limiter. -/
def answers (calls : List (LimiterCall κ)) : List Bool :=
  Clocked.answers l.step (fun buckets c => (l.call buckets c).1) [] calls

/-- The answers of a new limiter that never drops a bucket. -/
def answersKeeping (calls : List (LimiterCall κ)) : List Bool :=
  Clocked.answers l.stepKeeping (fun buckets c => (l.callKeeping buckets c).1) [] calls

/-! ## Levels -/

/-- The tokens a key would have if it was asked for now. -/
def level (buckets : Buckets κ) (now : ℚ) (key : κ) : ℚ :=
  (Dict.get? buckets key).elim l.capacity fun b => (l.refillBucket b now).tokens

/-- A new key finds no room and the bucket that is forced out is not full. -/
def EvictsLive (buckets : Buckets κ) (key : κ) (now : ℚ) : Prop :=
  key ∉ Dict.keys buckets ∧ l.maxTrackedKeys ≤ (l.dropFull buckets now).length ∧
    ∃ e ∈ (l.dropFull buckets now).head?, (l.refillBucket e.2 now).tokens < l.capacity

instance (buckets : Buckets κ) (key : κ) (now : ℚ) :
    Decidable (l.EvictsLive buckets key now) := by
  unfold EvictsLive
  infer_instance

/-- What holds of the buckets when the clock last read `now`. -/
structure Sane (now : ℚ) (buckets : Buckets κ) : Prop where
  nodup : (Dict.keys buckets).Nodup
  past : ∀ e ∈ buckets, e.2.lastRefill ≤ now
  nonneg : ∀ e ∈ buckets, 0 ≤ e.2.tokens
  le_capacity : ∀ e ∈ buckets, e.2.tokens ≤ l.capacity

variable {l}

omit [DecidableEq κ] in
theorem Sane.later {now later : ℚ} {buckets : Buckets κ} (h : l.Sane now buckets)
    (hle : now ≤ later) : l.Sane later buckets :=
  ⟨h.nodup, fun e he => (h.past e he).trans hle, h.nonneg, h.le_capacity⟩

omit [DecidableEq κ] in
theorem Sane.sublist {now : ℚ} {buckets buckets' : Buckets κ} (h : l.Sane now buckets)
    (hsub : buckets'.Sublist buckets) : l.Sane now buckets' where
  nodup := h.nodup.sublist (hsub.map Prod.fst)
  past := fun e he => h.past e (hsub.subset he)
  nonneg := fun e he => h.nonneg e (hsub.subset he)
  le_capacity := fun e he => h.le_capacity e (hsub.subset he)

theorem Sane.set {now : ℚ} {buckets : Buckets κ} (h : l.Sane now buckets) (key : κ)
    {bucket : Bucket} (hpast : bucket.lastRefill ≤ now) (hnonneg : 0 ≤ bucket.tokens)
    (hle : bucket.tokens ≤ l.capacity) : l.Sane now (Dict.set buckets key bucket) where
  nodup := Dict.nodup_keys_set h.nodup key bucket
  past := by
    intro e he
    rcases Dict.mem_set he with rfl | hmem
    · exact hpast
    · exact h.past e hmem
  nonneg := by
    intro e he
    rcases Dict.mem_set he with rfl | hmem
    · exact hnonneg
    · exact h.nonneg e hmem
  le_capacity := by
    intro e he
    rcases Dict.mem_set he with rfl | hmem
    · exact hle
    · exact h.le_capacity e hmem

omit [DecidableEq κ] in
theorem sane_nil (now : ℚ) : l.Sane now ([] : Buckets κ) := by
  constructor <;> simp [Dict.keys]

section Levels

variable {buckets : Buckets κ} {now : ℚ}

theorem capacity_nonneg : 0 ≤ l.capacity := zero_le_one.trans l.one_le_capacity

theorem level_of_get? {key : κ} {bucket : Bucket} (h : Dict.get? buckets key = some bucket) :
    l.level buckets now key = (l.refillBucket bucket now).tokens := by
  unfold level
  rw [h, Option.elim_some]

theorem level_of_not_mem {key : κ} (h : key ∉ Dict.keys buckets) :
    l.level buckets now key = l.capacity := by
  unfold level
  rw [Dict.get?_eq_none.mpr h, Option.elim_none]

theorem level_set (key : κ) (bucket : Bucket) (k : κ) :
    l.level (Dict.set buckets key bucket) now k =
      if k = key then (l.refillBucket bucket now).tokens else l.level buckets now k := by
  unfold level
  split_ifs with h
  · rw [h, Dict.get?_set_self, Option.elim_some]
  · rw [Dict.get?_set_of_ne buckets bucket h]

theorem refillBucket_tokens (bucket : Bucket) (now : ℚ) :
    (l.refillBucket bucket now).tokens = TokenBucket.refill l.capacity l.refillPerSecond
      bucket.tokens (now - bucket.lastRefill) := rfl

/-- Asked for at the moment of its last refill, a bucket is as it is. -/
theorem refillBucket_now (bucket : Bucket) (hnow : bucket.lastRefill = now)
    (hle : bucket.tokens ≤ l.capacity) : l.refillBucket bucket now = bucket := by
  have htokens : (l.refillBucket bucket now).tokens = bucket.tokens := by
    have hsame : now - bucket.lastRefill = 0 := by rw [hnow, sub_self]
    rw [refillBucket_tokens, hsame, TokenBucket.refill_zero hle]
  cases bucket with
  | mk tokens last =>
      obtain rfl : last = now := hnow
      exact congrArg (Bucket.mk · last) htokens

/-- What a later moment finds is what this one finds, refilled since. -/
theorem level_later {later : ℚ} (hle : now ≤ later) (key : κ) :
    l.level buckets later key =
      TokenBucket.refill l.capacity l.refillPerSecond (l.level buckets now key)
        (later - now) := by
  have hwait : 0 ≤ later - now := sub_nonneg.mpr hle
  unfold level
  cases Dict.get? buckets key with
  | none => exact (TokenBucket.refill_full l.refill_pos.le hwait).symm
  | some bucket =>
      have hsum : later - bucket.lastRefill = now - bucket.lastRefill + (later - now) := by
        ring
      rw [Option.elim_some, Option.elim_some, refillBucket_tokens, refillBucket_tokens,
        TokenBucket.refill_refill l.refill_pos.le _ hwait, hsum]

omit [DecidableEq κ] in
theorem Sane.refillBucket_nonneg (h : l.Sane now buckets) {e : κ × Bucket} (he : e ∈ buckets) :
    0 ≤ (l.refillBucket e.2 now).tokens := by
  rw [refillBucket_tokens]
  exact TokenBucket.refill_nonneg l.refill_pos.le capacity_nonneg
    (sub_nonneg.mpr (h.past e he)) (h.nonneg e he)

theorem refillBucket_le_capacity (bucket : Bucket) (now : ℚ) :
    (l.refillBucket bucket now).tokens ≤ l.capacity := by
  rw [refillBucket_tokens]
  exact TokenBucket.refill_le_capacity _

theorem Sane.level_nonneg (h : l.Sane now buckets) (key : κ) : 0 ≤ l.level buckets now key := by
  cases hget : Dict.get? buckets key with
  | none =>
      rw [level_of_not_mem (Dict.get?_eq_none.mp hget)]
      exact capacity_nonneg
  | some bucket =>
      rw [level_of_get? hget]
      exact h.refillBucket_nonneg (e := (key, bucket)) (Dict.mem_of_get? hget)

theorem level_le_capacity (key : κ) : l.level buckets now key ≤ l.capacity := by
  unfold level
  cases Dict.get? buckets key with
  | none => exact le_rfl
  | some bucket => exact refillBucket_le_capacity bucket now

/-! ## Dropping buckets -/

/-- A bucket that had time to refill is full. -/
theorem level_dropFull (h : l.Sane now buckets) (key : κ) :
    l.level (l.dropFull buckets now) now key = l.level buckets now key := by
  unfold level dropFull
  rw [Dict.get?_filter h.nodup]
  cases hget : Dict.get? buckets key with
  | none => rfl
  | some bucket =>
      rw [Option.filter_some]
      split_ifs with hkept
      · rfl
      · have hlong : l.capacity / l.refillPerSecond ≤ now - bucket.lastRefill := by
          exact not_lt.mp fun hless => hkept (decide_eq_true hless)
        rw [Option.elim_none, Option.elim_some, refillBucket_tokens,
          TokenBucket.refill_of_long l.refill_pos hlong (h.nonneg _ (Dict.mem_of_get? hget))]

/-- Nothing is lost with a full bucket. -/
theorem level_tail (h : l.Sane now buckets)
    (hhead : ∀ e ∈ buckets.head?, l.capacity ≤ (l.refillBucket e.2 now).tokens) (key : κ) :
    l.level buckets.tail now key = l.level buckets now key := by
  cases buckets with
  | nil => rfl
  | cons e rest =>
      have hnodup : e.1 ∉ Dict.keys rest := (List.nodup_cons.mp h.nodup).1
      by_cases hkey : e.1 = key
      · subst hkey
        have hget : Dict.get? (e :: rest) e.1 = some e.2 := by
          rw [Dict.get?_cons, if_pos rfl]
        have hfull := hhead e rfl
        rw [List.tail_cons, level_of_not_mem hnodup, level_of_get? hget]
        exact le_antisymm hfull (refillBucket_le_capacity e.2 now)
      · unfold level
        rw [List.tail_cons, Dict.get?_cons, if_neg hkey]

theorem makeRoom_spec (h : l.Sane now buckets) {key : κ} (hlive : ¬ l.EvictsLive buckets key now) :
    l.Sane now (l.makeRoom buckets key now) ∧
      ∀ k, l.level (l.makeRoom buckets key now) now k = l.level buckets now k := by
  have hdrop : l.Sane now (l.dropFull buckets now) := h.sublist List.filter_sublist
  unfold makeRoom
  split_ifs with hnew hforced
  · have hhead : ∀ e ∈ (l.dropFull buckets now).head?,
        l.capacity ≤ (l.refillBucket e.2 now).tokens := fun e he =>
      not_lt.mp fun hless => hlive ⟨hnew.1, hforced, e, he, hless⟩
    exact ⟨hdrop.sublist (List.tail_sublist _), fun k =>
      (level_tail hdrop hhead k).trans (level_dropFull h k)⟩
  · exact ⟨hdrop, level_dropFull h⟩
  · exact ⟨h, fun _ => rfl⟩

/-! ## One call -/

/-- The bucket of the key as it is now, in buckets that stand for the same levels. -/
structure Refilled (l : RateLimiter) (buckets : Buckets κ) (key : κ) (now : ℚ)
    (r : Bucket × Buckets κ) : Prop where
  tokens : r.1.tokens = l.level buckets now key
  lastRefill : r.1.lastRefill = now
  sane : l.Sane now r.2
  level : ∀ k, l.level r.2 now k = l.level buckets now k

theorem refillKey_spec (h : l.Sane now buckets) (key : κ) :
    l.Refilled buckets key now (l.refillKey buckets key now) := by
  have htokens : (l.refillKey buckets key now).1.tokens = l.level buckets now key := by
    unfold refillKey
    cases hget : Dict.get? buckets key with
    | none =>
        have hfull : l.refillBucket ⟨l.capacity, now⟩ now = ⟨l.capacity, now⟩ :=
          refillBucket_now _ rfl le_rfl
        rw [level_of_not_mem (Dict.get?_eq_none.mp hget)]
        exact congrArg Bucket.tokens hfull
    | some bucket =>
        rw [level_of_get? hget]
        rfl
  have hsame : l.refillBucket (l.refillKey buckets key now).1 now =
      (l.refillKey buckets key now).1 :=
    refillBucket_now _ rfl (htokens ▸ level_le_capacity key)
  refine ⟨htokens, rfl, ?_, ?_⟩
  · exact h.set key le_rfl (htokens ▸ h.level_nonneg key) (htokens ▸ level_le_capacity key)
  · intro k
    show l.level (Dict.set buckets key (l.refillKey buckets key now).1) now k = _
    rw [level_set, hsame, htokens]
    split_ifs with hk
    · rw [hk]
    · rfl

theorem refilled_spec (h : l.Sane now buckets) {key : κ}
    (hlive : ¬ l.EvictsLive buckets key now) :
    l.Refilled buckets key now (l.refilled buckets key now) := by
  obtain ⟨hsane, hlevel⟩ := makeRoom_spec h hlive
  have hkey := refillKey_spec hsane key
  exact ⟨hkey.tokens.trans (hlevel key), hkey.lastRefill, hkey.sane, fun k =>
    (hkey.level k).trans (hlevel k)⟩

/-- The answer, and what a call leaves of the levels. -/
structure Served (l : RateLimiter) (buckets : Buckets κ) (c : LimiterCall κ)
    (r : Bool × Buckets κ) : Prop where
  answer : r.1 = if c.op = .allow then decide (1 ≤ l.level buckets c.now c.key)
    else decide (l.level buckets c.now c.key < 1)
  sane : l.Sane c.now r.2
  level : ∀ k, l.level r.2 c.now k =
    if k = c.key ∧ c.op = .allow ∧ 1 ≤ l.level buckets c.now c.key
    then l.level buckets c.now k - 1 else l.level buckets c.now k

theorem finish_spec {c : LimiterCall κ} {r : Bucket × Buckets κ}
    (h : l.Refilled buckets c.key c.now r) : l.Served buckets c (finish c.op c.key r) := by
  obtain ⟨op, key, now⟩ := c
  have htokens := h.tokens
  cases op with
  | blocked =>
      refine ⟨?_, h.sane, fun k => ?_⟩
      · show decide (r.1.tokens < 1) = _
        rw [htokens, if_neg nofun]
      · rw [if_neg fun hk => nomatch hk.2.1]
        exact h.level k
  | allow =>
      show l.Served buckets _ (spend key r)
      unfold spend
      split_ifs with hless
      · rw [htokens] at hless
        refine ⟨?_, h.sane, fun k => ?_⟩
        · simp [not_le.mpr hless]
        · rw [if_neg fun hk => not_le.mpr hless hk.2.2]
          exact h.level k
      · rw [htokens, not_lt] at hless
        have hnonneg : 0 ≤ r.1.tokens - 1 := by
          rw [htokens]
          exact sub_nonneg.mpr hless
        have hle : r.1.tokens - 1 ≤ l.capacity := by
          have hcap : l.level buckets now key ≤ l.capacity := level_le_capacity key
          linarith
        refine ⟨?_, h.sane.set key h.lastRefill.le hnonneg hle, fun k => ?_⟩
        · simp [hless]
        · rw [level_set, refillBucket_now ⟨r.1.tokens - 1, r.1.lastRefill⟩ h.lastRefill hle]
          dsimp only
          by_cases hk : k = key
          · rw [if_pos hk, if_pos ⟨hk, rfl, hless⟩, htokens, hk]
          · rw [if_neg hk, if_neg fun hk' => hk hk'.1]
            exact h.level k

theorem call_spec {c : LimiterCall κ} (h : l.Sane c.now buckets)
    (hlive : ¬ l.EvictsLive buckets c.key c.now) : l.Served buckets c (l.call buckets c) := by
  rw [call_eq]
  exact finish_spec (refilled_spec h hlive)

/-- A call leaves no bucket but those it found and that of its key. -/
theorem mem_call {c : LimiterCall κ} {e : κ × Bucket} (h : e ∈ (l.call buckets c).2) :
    e.1 = c.key ∨ e.1 ∈ Dict.keys buckets := by
  have hroom : ∀ e ∈ l.makeRoom buckets c.key c.now, e ∈ buckets := by
    intro e he
    unfold makeRoom dropFull at he
    split_ifs at he
    · exact (List.mem_filter.mp (List.mem_of_mem_tail he)).1
    · exact (List.mem_filter.mp he).1
    · exact he
  have hrefilled : ∀ e ∈ (l.refilled buckets c.key c.now).2,
      e.1 = c.key ∨ e.1 ∈ Dict.keys buckets := by
    intro e he
    rcases Dict.mem_set he with rfl | hmem
    · exact .inl rfl
    · exact .inr (List.mem_map_of_mem (hroom e hmem))
  rw [call_eq] at h
  unfold finish spend probe at h
  split at h
  · split_ifs at h
    · exact hrefilled e h
    · rcases Dict.mem_set h with rfl | hmem
      · exact .inl rfl
      · exact hrefilled e hmem
  · exact hrefilled e h

theorem callKeeping_spec {c : LimiterCall κ} (h : l.Sane c.now buckets) :
    l.Served buckets c (l.callKeeping buckets c) :=
  finish_spec (refillKey_spec h c.key)

end Levels

/-! ## Whole runs -/

variable (l) in
/-- No call finds that a bucket has to go that is not full. -/
def NeverEvictsLive (calls : List (LimiterCall κ)) : Prop :=
  Guarded l.step (fun buckets c => ¬ l.EvictsLive buckets c.key c.now) [] calls

instance (calls : List (LimiterCall κ)) : Decidable (l.NeverEvictsLive calls) :=
  Guarded.decidable [] calls

/-- Buckets that stand for the same levels. -/
structure SameLevels (l : RateLimiter) (now : ℚ) (buckets buckets' : Buckets κ) : Prop where
  sane : l.Sane now buckets
  sane' : l.Sane now buckets'
  level : ∀ k, l.level buckets now k = l.level buckets' now k

theorem SameLevels.later {now later : ℚ} {buckets buckets' : Buckets κ}
    (h : l.SameLevels now buckets buckets') (hle : now ≤ later) :
    l.SameLevels later buckets buckets' := by
  refine ⟨h.sane.later hle, h.sane'.later hle, fun k => ?_⟩
  rw [level_later hle, level_later hle, h.level k]

/-- Buckets of the same levels serve a call alike. -/
theorem SameLevels.served {c : LimiterCall κ} {buckets buckets' : Buckets κ}
    {r r' : Bool × Buckets κ} (h : l.SameLevels c.now buckets buckets')
    (hr : l.Served buckets c r) (hr' : l.Served buckets' c r') :
    r.1 = r'.1 ∧ l.SameLevels c.now r.2 r'.2 := by
  refine ⟨?_, hr.sane, hr'.sane, fun k => ?_⟩
  · rw [hr.answer, hr'.answer, h.level]
  · rw [hr.level, hr'.level, h.level, h.level]

/-- As long as only full buckets go, a limiter answers like one that keeps them all. -/
theorem answers_eq_answersKeeping {calls : List (LimiterCall κ)}
    (hclock : calls.Pairwise fun a b => a.now ≤ b.now) (hlive : l.NeverEvictsLive calls) :
    l.answers calls = l.answersKeeping calls := by
  obtain ⟨start, horder⟩ := Clocked.exists_inOrder hclock
  have hempty : l.SameLevels start [] ([] : Buckets κ) :=
    ⟨sane_nil start, sane_nil start, fun _ => rfl⟩
  refine Clocked.answers_eq_of_simulation (R := l.SameLevels) ?_ hempty horder hlive
  intro c buckets buckets' a h hle hnot
  have hnow := h.later hle
  obtain ⟨hanswer, hsame⟩ := hnow.served (call_spec hnow.sane hnot) (callKeeping_spec hnow.sane')
  exact ⟨hanswer, .some hsame⟩

theorem sane_of_run {calls : List (LimiterCall κ)} {buckets : Buckets κ}
    (hclock : calls.Pairwise fun a b => a.now ≤ b.now) (hlive : l.NeverEvictsLive calls)
    (hrun : run l.step [] calls = some buckets) : ∃ now, l.Sane now buckets := by
  obtain ⟨start, horder⟩ := Clocked.exists_inOrder hclock
  have hstep : ∀ now (buckets : Buckets κ) (c : LimiterCall κ) buckets', l.Sane now buckets →
      now ≤ c.now → ¬ l.EvictsLive buckets c.key c.now → l.step buckets c = some buckets' →
      l.Sane c.now buckets' := by
    intro now buckets c buckets' h hle hnot hnext
    obtain rfl := Option.some.inj hnext
    exact (call_spec (h.later hle) hnot).sane
  obtain ⟨now, -, hsane, -⟩ := Clocked.run_invariant hstep (sane_nil start) horder hlive hrun
  exact ⟨now, hsane⟩

/-- A bucket that was just refilled is found as it is. -/
theorem refilled_again (buckets : Buckets κ) (key : κ) (now : ℚ) :
    (l.refilled (l.refilled buckets key now).2 key now).1 = (l.refilled buckets key now).1 := by
  generalize hkept : l.makeRoom buckets key now = kept
  have hrefilled : l.refilled buckets key now = l.refillKey kept key now :=
    congrArg (l.refillKey · key now) hkept
  have hget : Dict.get? (l.refillKey kept key now).2 key = some (l.refillKey kept key now).1 :=
    Dict.get?_set_self kept key _
  have hmem : key ∈ Dict.keys (l.refillKey kept key now).2 := by
    by_contra hnot
    rw [Dict.get?_eq_none.mpr hnot] at hget
    cases hget
  have hroom : l.makeRoom (l.refillKey kept key now).2 key now = (l.refillKey kept key now).2 :=
    if_neg fun h => h.1 hmem
  rw [hrefilled]
  unfold refilled
  rw [hroom]
  show l.refillBucket ((Dict.get? (l.refillKey kept key now).2 key).getD _) now = _
  rw [hget, Option.getD_some]
  exact refillBucket_now _ rfl (refillBucket_le_capacity _ now)

/-- `blocked` answers whether `allow` would refuse, asked instead of it or right after it. -/
theorem blocked_eq_not_allow (buckets : Buckets κ) (key : κ) (now : ℚ) :
    (l.blocked buckets key now).1 = !(l.allow buckets key now).1 ∧
      (l.blocked buckets key now).1 = !(l.allow (l.blocked buckets key now).2 key now).1 := by
  have hspend : ∀ r : Bucket × Buckets κ, (probe r).1 = !(spend key r).1 := by
    intro r
    unfold probe spend
    by_cases hless : r.1.tokens < 1 <;> simp [hless]
  refine ⟨hspend _, ?_⟩
  have hagain : (probe (l.refilled buckets key now)).1 =
      (probe (l.refilled (l.refilled buckets key now).2 key now)).1 := by
    unfold probe
    rw [refilled_again]
  exact hagain.trans (hspend _)

/-- A call of the key that is allowed. -/
def Allowed (l : RateLimiter) (key : κ) (buckets : Buckets κ) (c : LimiterCall κ) : Prop :=
  c.op = .allow ∧ c.key = key ∧ (l.call buckets c).1 = true

instance (key : κ) (buckets : Buckets κ) (c : LimiterCall κ) :
    Decidable (l.Allowed key buckets c) :=
  inferInstanceAs (Decidable (_ ∧ _ ∧ _))

/-- How often a key is allowed between two times. -/
def allowedBetween (l : RateLimiter) (calls : List (LimiterCall κ)) (key : κ) (first last : ℚ) :
    ℕ :=
  Clocked.occurrences l.step
    (fun buckets c => l.Allowed key buckets c ∧ first ≤ c.now ∧ c.now ≤ last) [] calls

/-- A token is spent for each call that is allowed, and time gives back what it gives. -/
theorem pays_level (l : RateLimiter) (key : κ) :
    Clocked.Pays (fun c : LimiterCall κ => c.now) l.step
      (fun buckets c => ¬ l.EvictsLive buckets c.key c.now) (l.Allowed key) l.Sane
      (fun now buckets => l.level buckets now key) l.refillPerSecond := by
  intro now buckets c buckets' hsane hle hnot hstep
  obtain rfl := Option.some.inj hstep
  have hserved := call_spec (hsane.later hle) hnot
  have hgain : l.level buckets c.now key ≤
      l.level buckets now key + l.refillPerSecond * (c.now - now) := by
    rw [level_later hle]
    exact TokenBucket.refill_le_add _
  refine ⟨hserved.sane, ?_⟩
  dsimp only
  rw [hserved.level]
  by_cases hallowed : l.Allowed key buckets c
  · obtain ⟨hop, rfl, hanswer⟩ := hallowed
    rw [hserved.answer, if_pos hop, decide_eq_true_iff] at hanswer
    rw [if_pos ⟨hop, rfl, by rw [hserved.answer, if_pos hop, decide_eq_true hanswer]⟩,
      if_pos ⟨rfl, hop, hanswer⟩]
    linarith
  · rw [if_neg hallowed]
    split_ifs <;> linarith

theorem allowedBetween_le {calls : List (LimiterCall κ)}
    (hclock : calls.Pairwise fun a b => a.now ≤ b.now) (hlive : l.NeverEvictsLive calls)
    (key : κ) {first last : ℚ} (hwindow : first ≤ last) :
    (l.allowedBetween calls key first last : ℚ) ≤
      l.capacity + l.refillPerSecond * (last - first) := by
  obtain ⟨start, horder⟩ := Clocked.exists_inOrder hclock
  exact Clocked.occurrences_le_of_potential (pays_level l key)
    (fun _ _ hsane => hsane.level_nonneg key) (fun _ _ _ => level_le_capacity key)
    l.refill_pos.le (fun _ _ _ hsane hle => hsane.later hle) (fun _ _ _ => ⟨_, rfl⟩)
    (sane_nil start) horder hlive hwindow

/-- The limiter bounds every key, and nobody sees which buckets it drops. -/
theorem bounds_and_hides_pruning {calls : List (LimiterCall κ)}
    (hclock : calls.Pairwise fun a b => a.now ≤ b.now) (hlive : l.NeverEvictsLive calls) :
    l.answers calls = l.answersKeeping calls ∧
    (∀ pre buckets, pre <+: calls → run l.step [] pre = some buckets →
      (∀ e ∈ buckets, 0 ≤ e.2.tokens ∧ e.2.tokens ≤ l.capacity) ∧
      ∀ key now, (l.blocked buckets key now).1 = !(l.allow buckets key now).1 ∧
        (l.blocked buckets key now).1 =
          !(l.allow (l.blocked buckets key now).2 key now).1) ∧
    ∀ key start length, 0 ≤ length →
      (l.allowedBetween calls key start (start + length) : ℚ) ≤
        l.capacity + l.refillPerSecond * length := by
  refine ⟨answers_eq_answersKeeping hclock hlive, ?_, ?_⟩
  · intro pre buckets hpre hrun
    have hclock' := hclock.sublist hpre.sublist
    obtain ⟨now, hsane⟩ := sane_of_run hclock' (hlive.initial hpre) hrun
    exact ⟨fun e he => ⟨hsane.nonneg e he, hsane.le_capacity e he⟩,
      blocked_eq_not_allow buckets⟩
  · intro key start length hlength
    have hwindow : start ≤ start + length := by linarith
    have hbound := allowedBetween_le hclock hlive key hwindow
    rwa [add_sub_cancel_left] at hbound

/-- Room for one key, two tokens and one more a second. -/
def small : RateLimiter where
  capacity := 2
  maxTrackedKeys := 1

/-- Three calls of one key, then one of another when the first is long full, and back. -/
def smallCalls : List (LimiterCall String) :=
  [⟨.allow, "a", 0⟩, ⟨.allow, "a", 0⟩, ⟨.blocked, "a", 1 / 2⟩, ⟨.allow, "b", 3⟩,
    ⟨.allow, "a", 5⟩]

theorem small_bounds_and_hides_pruning :
    (run small.step [] smallCalls).map Dict.keys = some ["a"] ∧
    small.answers smallCalls = small.answersKeeping smallCalls ∧
    small.answers smallCalls = [true, true, true, true, true] ∧
    (small.allowedBetween smallCalls "a" 0 (0 + 1) : ℚ) ≤ 2 + 1 * 1 := by
  have hclock : smallCalls.Pairwise fun a b => a.now ≤ b.now := by decide +kernel
  have hlive : small.NeverEvictsLive smallCalls := by decide +kernel
  obtain ⟨hanswers, -, hbound⟩ := bounds_and_hides_pruning hclock hlive
  exact ⟨by decide +kernel, hanswers, by decide +kernel, hbound "a" 0 1 zero_le_one⟩

end RateLimiter

end NeuroForge
