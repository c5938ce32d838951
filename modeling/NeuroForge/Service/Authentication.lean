/-
  Concurrent authentication.

  `get_principal` runs on a pool of threads. A call takes the lock of the limiter it asks
  twice: to find out whether its client is blocked and, after a verification has failed, to
  take a token from that client. Everything between two locks is one step here, so the
  verification of a key is a step of its own and any number of calls may stand before it.

  A check that passes reserves nothing. It is covered (`CheckCovered`) when the client has a
  token for the call itself and for each of its calls that stand between their check and
  their charge. In a run whose checks are covered every such call is paid for, so that the
  verifications are bounded as the tokens are (`guesses_bounded_of_covered`); a burst of
  calls that all check first is verified as a whole.
-/
import NeuroForge.Service.RateLimiter
import NeuroForge.Service.Requests

namespace NeuroForge

open Transition

structure Principal where
  name : String
  role : String
deriving DecidableEq

structure ApiKeyRecord where
  name : String
  keyHash : String
  role : String
deriving DecidableEq

/-- An entry of `_verified`. -/
structure VerifiedEntry where
  name : String
  role : String
  keyHash : String
  expiresAt : ℚ
deriving DecidableEq

/-- What hashes a key, and what checks a key against a stored hash. -/
structure KeyPlatform where
  fingerprint : String → String
  verify : String → String → Bool

/-- What all calls share: the verified keys and the buckets of the two limiters. -/
structure AuthStore where
  verified : Dict String VerifiedEntry := []
  rates : Buckets String := []
  failures : Buckets String := []
deriving DecidableEq

/-- Where a call of `get_principal` stands. -/
inductive AuthStage where
  | arrived
  | cached (principal : Principal) (keyHash : String)
  | unchecked
  | keyless
  | admitted (key : String)
  | matched (key : String) (record : ApiKeyRecord)
  | remembered (record : ApiKeyRecord)
  | mismatched
  | answered (response : Except HttpError Principal)

structure AuthCall where
  client : String
  rawKey : Option String
  stage : AuthStage := .arrived

theorem one_le_sixty : (1 : ℚ) ≤ 60 := by norm_num

theorem zero_lt_one_second : (0 : ℚ) < 1 := by norm_num

theorem tracks_some_keys : 0 < 10000 := by norm_num

def rateLimiter : RateLimiter where
  one_le_capacity := one_le_sixty
  refill_pos := zero_lt_one_second
  tracks_pos := tracks_some_keys

theorem one_le_ten : (1 : ℚ) ≤ 10 := by norm_num

theorem zero_lt_fifth : (0 : ℚ) < 1 / 5 := by norm_num

def failureLimiter : RateLimiter where
  capacity := 10
  refillPerSecond := 1 / 5
  one_le_capacity := one_le_ten
  refill_pos := zero_lt_fifth
  tracks_pos := tracks_some_keys

def verifiedTtlSeconds : ℚ := 300

def verifiedMaxEntries : ℕ := 1024

def rateLimitExceeded : HttpError := ⟨429, "rate limit exceeded"⟩

def tooManyFailures : HttpError := ⟨429, "too many failed authentication attempts"⟩

def missingHeader : HttpError := ⟨401, "missing X-API-Key header"⟩

def invalidApiKey : HttpError := ⟨401, "invalid API key"⟩

/-- The key of a request that has one. -/
def givenKey (rawKey : Option String) : Option String := rawKey.filter fun key => key ≠ ""

/-- `_cached_principal`. -/
def cachedPrincipal (verified : Dict String VerifiedEntry) (fingerprint : String) (now : ℚ) :
    Option (Principal × String) × Dict String VerifiedEntry :=
  match Dict.get? verified fingerprint with
  | none => (none, verified)
  | some entry =>
      if entry.expiresAt < now then (none, verified.filter fun e => e.1 ≠ fingerprint)
      else (some (⟨entry.name, entry.role⟩, entry.keyHash), verified)

/-- `_remember`. -/
def remember (verified : Dict String VerifiedEntry) (fingerprint : String)
    (record : ApiKeyRecord) (now : ℚ) : Dict String VerifiedEntry :=
  Dict.set (if verifiedMaxEntries ≤ verified.length then verified.tail else verified) fingerprint
    ⟨record.name, record.role, record.keyHash, now + verifiedTtlSeconds⟩

section Code

variable (p : KeyPlatform) (apiKeys : List ApiKeyRecord)

/-- The last step of a call with a valid key. -/
def grant (store : AuthStore) (keyHash : String) (principal : Principal) (now : ℚ) :
    AuthStore × AuthStage :=
  let (allowed, rates) := rateLimiter.allow store.rates keyHash now
  ({ store with rates }, .answered (if allowed then .ok principal else .error rateLimitExceeded))

/-- The last step of a failed one. -/
def charge (store : AuthStore) (client : String) (error : HttpError) (now : ℚ) :
    AuthStore × AuthStage :=
  ({ store with failures := (failureLimiter.allow store.failures client now).2 },
    .answered (.error error))

/-- The throttle check. -/
def checkThrottle (store : AuthStore) (c : AuthCall) (now : ℚ) : AuthStore × AuthStage :=
  let (blocked, failures) := failureLimiter.blocked store.failures c.client now
  ({ store with failures },
    if blocked then .answered (.error tooManyFailures)
    else (givenKey c.rawKey).elim .keyless .admitted)

def lookUpKey (store : AuthStore) (key : String) (now : ℚ) : AuthStore × AuthStage :=
  let (hit, verified) := cachedPrincipal store.verified (p.fingerprint key) now
  ({ store with verified }, hit.elim .unchecked fun e => .cached e.1 e.2)

/-- The verification against the stored keys. -/
def verifyKey (key : String) : AuthStage :=
  (apiKeys.find? fun record => p.verify key record.keyHash).elim .mismatched (.matched key)

/-- The next step of `get_principal`. -/
def AuthCall.next (store : AuthStore) (c : AuthCall) (now : ℚ) : Option (AuthStore × AuthStage) :=
  match c.stage with
  | .arrived => (givenKey c.rawKey).elim (store, AuthStage.unchecked) fun key =>
      lookUpKey p store key now
  | .cached principal keyHash => grant store keyHash principal now
  | .unchecked => checkThrottle store c now
  | .keyless => charge store c.client missingHeader now
  | .admitted key => some (store, verifyKey p apiKeys key)
  | .matched key record =>
      some ({ store with
        verified := remember store.verified (p.fingerprint key) record now }, .remembered record)
  | .remembered record => grant store record.keyHash ⟨record.name, record.role⟩ now
  | .mismatched => charge store c.client invalidApiKey now
  | .answered _ => none

structure AuthState where
  store : AuthStore := {}
  calls : List AuthCall := []

inductive AuthMove where
  | arrive (client : String) (rawKey : Option String)
  | advance (i : ℕ)

/-- A move of the system, with the reading of the clock it takes. -/
structure AuthAction where
  move : AuthMove
  now : ℚ

def AuthState.step (s : AuthState) (a : AuthAction) : Option AuthState :=
  match a.move with
  | .arrive client rawKey => some { s with calls := s.calls ++ [{ client, rawKey }] }
  | .advance i => (s.calls[i]?).bind fun c =>
      (c.next p apiKeys s.store a.now).map fun r =>
        ⟨r.1, s.calls.set i { c with stage := r.2 }⟩

end Code

/-! ## Checks and charges -/

/-- Between a check that passed and the charge that is due. -/
def AuthStage.owes : AuthStage → Bool
  | .keyless | .mismatched => true
  | _ => false

/-- Between a check that passed and the end of the verification. -/
def AuthStage.verifying : AuthStage → Bool
  | .admitted _ => true
  | _ => false

def AuthStage.checking : AuthStage → Bool
  | .unchecked => true
  | _ => false

def AuthStage.underWay (stage : AuthStage) : Bool := stage.verifying || stage.owes

namespace AuthState

/-- The number of calls of a client at stages of a kind. -/
def standing (s : AuthState) (client : String) (kind : AuthStage → Bool) : ℕ :=
  s.calls.countP fun c => c.client = client ∧ kind c.stage

/-- The number of calls of a client that were let through and have not been charged. -/
def underWay (s : AuthState) (client : String) : ℕ := s.standing client AuthStage.underWay

/-- The action verifies a key. -/
def Verifies (s : AuthState) (a : AuthAction) : Prop :=
  match a.move with
  | .arrive _ _ => False
  | .advance i => ∃ c ∈ s.calls[i]?, c.stage.verifying

/-- A throttle check that passes finds a token for the call and for each call of the client
    that is under way. -/
def CheckCovered (s : AuthState) (a : AuthAction) : Prop :=
  match a.move with
  | .arrive _ _ => True
  | .advance i => ∀ c ∈ s.calls[i]?, c.stage.checking →
      (failureLimiter.blocked s.store.failures c.client a.now).1 = false →
      (s.underWay c.client + 1 : ℚ) ≤ failureLimiter.level s.store.failures a.now c.client

instance (s : AuthState) (a : AuthAction) : Decidable (s.Verifies a) := by
  unfold Verifies
  split <;> infer_instance

instance (s : AuthState) (a : AuthAction) : Decidable (s.CheckCovered a) := by
  unfold CheckCovered
  split <;> infer_instance

end AuthState

section Bound

variable {p : KeyPlatform} {apiKeys : List ApiKeyRecord}

/-- The key of the request, if it has one, is none of the stored keys. -/
def Mismatches (p : KeyPlatform) (apiKeys : List ApiKeyRecord) (rawKey : Option String) : Prop :=
  ∀ key ∈ rawKey, ∀ record ∈ apiKeys, p.verify key record.keyHash = false

/-- Whoever arrives comes from the client and has no valid key. -/
def Guesses (p : KeyPlatform) (apiKeys : List ApiKeyRecord) (client : String) (a : AuthAction) :
    Prop :=
  match a.move with
  | .arrive from_ rawKey => from_ = client ∧ Mismatches p apiKeys rawKey
  | .advance _ => True

instance (client : String) (a : AuthAction) : Decidable (Guesses p apiKeys client a) := by
  unfold Guesses Mismatches
  split <;> infer_instance

/-- What a step of a call does to the failure buckets, and where the call goes. -/
inductive Advances (p : KeyPlatform) (apiKeys : List ApiKeyRecord) (store : AuthStore)
    (c : AuthCall) (now : ℚ) (store' : AuthStore) (stage' : AuthStage) : Prop
  | quiet (hsame : store'.failures = store.failures) (hbefore : c.stage.underWay = false)
      (hafter : stage'.underWay = false)
  | check (hcheck : c.stage = .unchecked)
      (hprobe : store'.failures = (failureLimiter.blocked store.failures c.client now).2)
      (hpass : stage'.underWay →
        (failureLimiter.blocked store.failures c.client now).1 = false)
      (hkey : ∀ key, stage' = .admitted key → c.rawKey = some key)
  | verify (key : String) (hverify : c.stage = .admitted key) (hsame : store' = store)
      (hfail : stage' = verifyKey p apiKeys key)
  | charge (howes : c.stage.owes)
      (hcharge : store'.failures = (failureLimiter.allow store.failures c.client now).2)
      (hafter : stage'.underWay = false)

theorem verifyKey_mismatched {key : String}
    (h : ∀ record ∈ apiKeys, p.verify key record.keyHash = false) :
    verifyKey p apiKeys key = .mismatched := by
  have hnone : (apiKeys.find? fun record => p.verify key record.keyHash) = none :=
    List.find?_eq_none.mpr fun record hmem => by simp [h record hmem]
  unfold verifyKey
  rw [hnone, Option.elim_none]

theorem lookUpKey_failures (store : AuthStore) (key : String) (now : ℚ) :
    (lookUpKey p store key now).1.failures = store.failures ∧
      (lookUpKey p store key now).2.underWay = false := by
  unfold lookUpKey
  dsimp only
  cases (cachedPrincipal store.verified (p.fingerprint key) now).1 with
  | none => exact ⟨rfl, rfl⟩
  | some e => exact ⟨rfl, rfl⟩

theorem checkThrottle_passes {store : AuthStore} {c : AuthCall} {now : ℚ}
    (h : (checkThrottle store c now).2.underWay) :
    (failureLimiter.blocked store.failures c.client now).1 = false := by
  unfold checkThrottle at h
  dsimp only at h
  split_ifs at h with hblocked
  · cases h
  · exact eq_false_of_ne_true hblocked

theorem checkThrottle_admits {store : AuthStore} {c : AuthCall} {now : ℚ} {key : String}
    (h : (checkThrottle store c now).2 = .admitted key) : c.rawKey = some key := by
  unfold checkThrottle at h
  dsimp only at h
  split_ifs at h with hblocked
  cases hgiven : givenKey c.rawKey with
  | none =>
      rw [hgiven] at h
      cases h
  | some key' =>
      rw [hgiven] at h
      cases h
      exact (Option.filter_eq_some_iff.mp hgiven).1

theorem next_cases {store store' : AuthStore} {c : AuthCall} {now : ℚ} {stage' : AuthStage}
    (h : c.next p apiKeys store now = some (store', stage')) :
    Advances p apiKeys store c now store' stage' := by
  obtain ⟨client, rawKey, stage⟩ := c
  cases stage with
  | arrived =>
      cases hgiven : givenKey rawKey with
      | none =>
          simp only [AuthCall.next, hgiven, Option.elim_none] at h
          cases h
          exact .quiet rfl rfl rfl
      | some key =>
          simp only [AuthCall.next, hgiven, Option.elim_some] at h
          have hlook := lookUpKey_failures (p := p) store key now
          rw [Option.some.inj h] at hlook
          exact .quiet hlook.1 rfl hlook.2
  | cached principal keyHash =>
      cases h
      exact .quiet rfl rfl rfl
  | unchecked =>
      cases h
      exact .check rfl rfl checkThrottle_passes fun key => checkThrottle_admits
  | keyless =>
      cases h
      exact .charge rfl rfl rfl
  | admitted key =>
      cases h
      exact .verify key rfl rfl rfl
  | matched key record =>
      cases h
      exact .quiet rfl rfl rfl
  | remembered record =>
      cases h
      exact .quiet rfl rfl rfl
  | mismatched =>
      cases h
      exact .charge rfl rfl rfl
  | answered response => cases h

theorem countP_set_add {α : Type*} {as : List α} {i : ℕ} {a : α} (h : as[i]? = some a) (b : α)
    (q : α → Bool) :
    (as.set i b).countP q + (if q a then 1 else 0) = as.countP q + if q b then 1 else 0 := by
  obtain ⟨hi, rfl⟩ := List.getElem?_eq_some_iff.mp h
  rw [List.countP_set hi]
  have hle : (if q as[i] then 1 else 0) ≤ as.countP q := by
    split_ifs with hq
    · exact List.countP_pos_iff.mpr ⟨as[i], List.getElem_mem hi, hq⟩
    · exact Nat.zero_le _
  omega

theorem standing_set {s : AuthState} {i : ℕ} {c : AuthCall} (h : s.calls[i]? = some c)
    (store : AuthStore) (stage : AuthStage) (kind : AuthStage → Bool) :
    (AuthState.mk store (s.calls.set i { c with stage })).standing c.client kind +
        (if kind c.stage then 1 else 0) =
      s.standing c.client kind + if kind stage then 1 else 0 := by
  have hcount := countP_set_add h { c with stage } fun d => d.client = c.client ∧ kind d.stage
  unfold AuthState.standing
  simpa using hcount

/-- A call of the client whose key is none of the stored ones. -/
structure GuessedBy (p : KeyPlatform) (apiKeys : List ApiKeyRecord) (client : String)
    (c : AuthCall) : Prop where
  client : c.client = client
  key : Mismatches p apiKeys c.rawKey
  stage : ∀ key, c.stage = .admitted key → c.rawKey = some key

theorem GuessedBy.next {client : String} {store store' : AuthStore} {c : AuthCall} {now : ℚ}
    {stage' : AuthStage} (h : GuessedBy p apiKeys client c)
    (hnext : Advances p apiKeys store c now store' stage') :
    GuessedBy p apiKeys client { c with stage := stage' } := by
  refine ⟨h.client, h.key, fun key hkey => ?_⟩
  obtain rfl : stage' = .admitted key := hkey
  cases hnext with
  | quiet _ _ hafter => cases hafter
  | check _ _ _ hgiven => exact hgiven key rfl
  | verify key' hverify _ hfail =>
      rw [verifyKey_mismatched (h.key key' (h.stage key' hverify))] at hfail
      cases hfail
  | charge _ _ hafter => cases hafter

/-- What holds when all calls are guesses of one client and all checks are covered: each call
    under way has its token. -/
structure Paid (p : KeyPlatform) (apiKeys : List ApiKeyRecord) (client : String) (now : ℚ)
    (s : AuthState) : Prop where
  sane : failureLimiter.Sane now s.store.failures
  own : ∀ e ∈ s.store.failures, e.1 = client
  calls : ∀ c ∈ s.calls, GuessedBy p apiKeys client c
  paid : (s.underWay client : ℚ) ≤ failureLimiter.level s.store.failures now client

variable {client : String} {now : ℚ} {s : AuthState}

theorem Paid.later {later : ℚ} (h : Paid p apiKeys client now s) (hle : now ≤ later) :
    Paid p apiKeys client later s := by
  refine ⟨h.sane.later hle, h.own, h.calls, h.paid.trans ?_⟩
  rw [RateLimiter.level_later hle]
  exact TokenBucket.le_refill failureLimiter.refill_pos.le (sub_nonneg.mpr hle)
    (RateLimiter.level_le_capacity client)

/-- With one client there is no bucket to force out. -/
theorem Paid.not_evictsLive (h : Paid p apiKeys client now s) :
    ¬ failureLimiter.EvictsLive s.store.failures client now := by
  rintro ⟨hnew, -, e, he, -⟩
  have hmem : e ∈ s.store.failures := (List.mem_filter.mp (List.mem_of_mem_head? he)).1
  exact hnew (h.own e hmem ▸ List.mem_map_of_mem hmem)

theorem Paid.served (h : Paid p apiKeys client now s) (op : LimiterOp) :
    failureLimiter.Served s.store.failures ⟨op, client, now⟩
      (failureLimiter.call s.store.failures ⟨op, client, now⟩) :=
  RateLimiter.call_spec h.sane h.not_evictsLive

theorem Paid.own_call (h : Paid p apiKeys client now s) (op : LimiterOp) :
    ∀ e ∈ (failureLimiter.call s.store.failures ⟨op, client, now⟩).2, e.1 = client := by
  intro e he
  rcases RateLimiter.mem_call he with hkey | hmem
  · exact hkey
  · obtain ⟨e', he', hkey⟩ := List.mem_map.mp hmem
    rw [← hkey]
    exact h.own e' he'

theorem standing_set_cast {i : ℕ} {c : AuthCall} (h : s.calls[i]? = some c)
    (hclient : c.client = client) (store : AuthStore) (stage : AuthStage)
    (kind : AuthStage → Bool) :
    ((AuthState.mk store (s.calls.set i { c with stage })).standing client kind : ℚ) +
        (if kind c.stage then 1 else 0) =
      s.standing client kind + if kind stage then 1 else 0 := by
  subst hclient
  exact_mod_cast standing_set h store stage kind

/-- A probe of the client's bucket takes nothing. -/
theorem Paid.level_probed (h : Paid p apiKeys client now s) :
    failureLimiter.level (failureLimiter.blocked s.store.failures client now).2 now client =
      failureLimiter.level s.store.failures now client :=
  ((h.served .blocked).level client).trans (if_neg fun hop => LimiterOp.noConfusion hop.2.1)

/-- A charge takes the token that is there. -/
theorem Paid.level_charged (h : Paid p apiKeys client now s)
    (htoken : 1 ≤ failureLimiter.level s.store.failures now client) :
    failureLimiter.level (failureLimiter.allow s.store.failures client now).2 now client =
      failureLimiter.level s.store.failures now client - 1 :=
  ((h.served .allow).level client).trans (if_pos ⟨rfl, rfl, htoken⟩)

/-- A step leaves buckets of the client alone, and keeps them sane. -/
theorem Paid.next_failures {store' : AuthStore} {stage' : AuthStage} {c : AuthCall}
    (h : Paid p apiKeys client now s) (hclient : c.client = client)
    (hnext : Advances p apiKeys s.store c now store' stage') :
    failureLimiter.Sane now store'.failures ∧ ∀ e ∈ store'.failures, e.1 = client := by
  cases hnext with
  | quiet hsame =>
      rw [hsame]
      exact ⟨h.sane, h.own⟩
  | check _ hprobe =>
      rw [hprobe, hclient]
      exact ⟨(h.served .blocked).sane, h.own_call .blocked⟩
  | verify _ _ hsame =>
      rw [hsame]
      exact ⟨h.sane, h.own⟩
  | charge _ hcharge =>
      rw [hcharge, hclient]
      exact ⟨(h.served .allow).sane, h.own_call .allow⟩

theorem AuthStage.underWay_of_owes {stage : AuthStage} (h : stage.owes = true) :
    stage.underWay = true ∧ stage.verifying = false := by
  unfold AuthStage.underWay
  rw [h, Bool.or_true]
  refine ⟨rfl, ?_⟩
  cases stage with
  | admitted key => cases h
  | _ => rfl

/-- A step of a call keeps each call under way paid for; a verification adds to what is owed. -/
theorem Paid.advance {store' : AuthStore} {stage' : AuthStage} {i : ℕ} {c : AuthCall}
    (h : Paid p apiKeys client now s) (hc : s.calls[i]? = some c)
    (hnext : Advances p apiKeys s.store c now store' stage')
    (hcovered : c.stage.checking →
      (failureLimiter.blocked s.store.failures c.client now).1 = false →
      (s.underWay c.client + 1 : ℚ) ≤ failureLimiter.level s.store.failures now c.client) :
    Paid p apiKeys client now ⟨store', s.calls.set i { c with stage := stage' }⟩ ∧
      (if c.stage.verifying then 1 else 0) +
          (failureLimiter.level store'.failures now client -
            (AuthState.mk store' (s.calls.set i { c with stage := stage' })).standing client
              AuthStage.owes) ≤
        failureLimiter.level s.store.failures now client -
          s.standing client AuthStage.owes := by
  have hguessed := h.calls c (List.mem_of_getElem? hc)
  have hclient := hguessed.client
  have hcalls : ∀ d ∈ s.calls.set i { c with stage := stage' }, GuessedBy p apiKeys client d := by
    intro d hd
    rcases List.mem_or_eq_of_mem_set hd with hold | rfl
    · exact h.calls d hold
    · exact hguessed.next hnext
  have hway := standing_set_cast hc hclient store' stage' AuthStage.underWay
  have howed := standing_set_cast hc hclient store' stage' AuthStage.owes
  have hpaid : (s.standing client AuthStage.underWay : ℚ) ≤ _ := h.paid
  obtain ⟨hsane, hown⟩ := h.next_failures hclient hnext
  rw [hclient] at hcovered
  suffices hcount : ((AuthState.mk store' (s.calls.set i { c with stage := stage' })).standing
      client AuthStage.underWay : ℚ) ≤ failureLimiter.level store'.failures now client ∧
      (if c.stage.verifying then 1 else 0) +
          (failureLimiter.level store'.failures now client -
            (AuthState.mk store' (s.calls.set i { c with stage := stage' })).standing client
              AuthStage.owes) ≤
        failureLimiter.level s.store.failures now client -
          s.standing client AuthStage.owes from
    ⟨⟨hsane, hown, hcalls, hcount.1⟩, hcount.2⟩
  cases hnext with
  | quiet hsame hbefore hafter =>
      obtain ⟨hverify, howes⟩ := Bool.or_eq_false_iff.mp hbefore
      obtain ⟨-, howes'⟩ := Bool.or_eq_false_iff.mp hafter
      simp only [hbefore, hafter, howes, howes', hverify, Bool.false_eq_true, if_false,
        add_zero] at hway howed ⊢
      rw [hway, howed, hsame]
      exact ⟨hpaid, by linarith⟩
  | check hcheck hprobe hpass hkey =>
      rw [hclient] at hprobe hpass
      have hbefore : c.stage.underWay = false ∧ c.stage.owes = false ∧
          c.stage.verifying = false ∧ c.stage.checking = true := by
        rw [hcheck]
        exact ⟨rfl, rfl, rfl, rfl⟩
      simp only [hbefore, Bool.false_eq_true, if_false, add_zero] at hway howed ⊢
      rw [hway, howed, hprobe, h.level_probed]
      refine ⟨?_, by split_ifs <;> linarith⟩
      split_ifs with hin
      · exact hcovered hbefore.2.2.2 (hpass hin)
      · rw [add_zero]
        exact hpaid
  | verify key hverify hsame hfail =>
      rw [verifyKey_mismatched (hguessed.key key (hguessed.stage key hverify))] at hfail
      have hbefore : c.stage.underWay = true ∧ c.stage.owes = false ∧
          c.stage.verifying = true := by
        rw [hverify]
        exact ⟨rfl, rfl, rfl⟩
      have hafter : stage'.underWay = true ∧ stage'.owes = true := by
        rw [hfail]
        exact ⟨rfl, rfl⟩
      simp only [hbefore, hafter, Bool.false_eq_true, if_false, if_true, add_zero] at hway howed ⊢
      rw [add_right_cancel hway, howed, hsame]
      exact ⟨hpaid, by linarith⟩
  | charge howes hcharge hafter =>
      rw [hclient] at hcharge
      obtain ⟨-, howes'⟩ := Bool.or_eq_false_iff.mp hafter
      have hbefore := AuthStage.underWay_of_owes howes
      simp only [hbefore, hafter, howes, howes', Bool.false_eq_true, if_false, if_true,
        add_zero] at hway howed ⊢
      -- The call itself is under way, so that there is a token for it.
      have htoken : 1 ≤ failureLimiter.level s.store.failures now client := by
        have hnonneg : (0 : ℚ) ≤ (AuthState.mk store'
          (s.calls.set i { c with stage := stage' })).standing client AuthStage.underWay :=
          Nat.cast_nonneg _
        linarith
      rw [hcharge, h.level_charged htoken]
      exact ⟨by linarith, by linarith⟩

/-- A step keeps each call under way paid for; a verification takes what is then owed. -/
theorem Paid.step {s' : AuthState} {a : AuthAction} (h : Paid p apiKeys client a.now s)
    (hguess : Guesses p apiKeys client a) (hcovered : s.CheckCovered a)
    (hstep : s.step p apiKeys a = some s') :
    Paid p apiKeys client a.now s' ∧
      (if s.Verifies a then 1 else 0) +
          (failureLimiter.level s'.store.failures a.now client -
            s'.standing client AuthStage.owes) ≤
        failureLimiter.level s.store.failures a.now client -
          s.standing client AuthStage.owes := by
  obtain ⟨move, now⟩ := a
  cases move with
  | arrive from_ rawKey =>
      obtain rfl := Option.some.inj hstep
      obtain ⟨rfl, hkey⟩ := hguess
      have hsame : ∀ kind : AuthStage → Bool, kind .arrived = false →
          (AuthState.mk s.store (s.calls ++ [{ client := from_, rawKey }])).standing from_ kind =
            s.standing from_ kind := by
        intro kind hkind
        unfold AuthState.standing
        rw [List.countP_append]
        simp [hkind]
      refine ⟨⟨h.sane, h.own, ?_, ?_⟩, ?_⟩
      · intro d hd
        rcases List.mem_append.mp hd with hold | hnew
        · exact h.calls d hold
        · rw [List.mem_singleton.mp hnew]
          exact ⟨rfl, hkey, fun key hstage => nomatch hstage⟩
      · show ((AuthState.standing _ _ _ : ℕ) : ℚ) ≤ _
        rw [hsame AuthStage.underWay rfl]
        exact h.paid
      · have hnot : ¬ s.Verifies ⟨.arrive from_ rawKey, now⟩ := id
        rw [if_neg hnot, hsame AuthStage.owes rfl, zero_add]
  | advance i =>
      obtain ⟨c, hc, hstep⟩ := Option.bind_eq_some_iff.mp hstep
      obtain ⟨r, hr, rfl⟩ := Option.map_eq_some_iff.mp hstep
      have hverifies : s.Verifies ⟨.advance i, now⟩ ↔ c.stage.verifying := by
        show (∃ d ∈ s.calls[i]?, _) ↔ _
        simp [hc]
      have hadvance := h.advance hc (next_cases hr) (hcovered c hc)
      simpa only [hverifies] using hadvance

/-- From the tokens of the client, what is owed for verifications is already gone. -/
theorem pays_verifications (p : KeyPlatform) (apiKeys : List ApiKeyRecord) (client : String) :
    Clocked.Pays AuthAction.now (AuthState.step p apiKeys)
      (fun s a => s.CheckCovered a ∧ Guesses p apiKeys client a) AuthState.Verifies
      (Paid p apiKeys client)
      (fun now s => failureLimiter.level s.store.failures now client -
        s.standing client AuthStage.owes) failureLimiter.refillPerSecond := by
  intro now s a s' h hle hok hstep
  obtain ⟨hpaid, hcost⟩ := (h.later hle).step hok.2 hok.1 hstep
  have hgain : failureLimiter.level s.store.failures a.now client ≤
      failureLimiter.level s.store.failures now client +
        failureLimiter.refillPerSecond * (a.now - now) := by
    rw [RateLimiter.level_later hle]
    exact TokenBucket.refill_le_add _
  exact ⟨hpaid, by linarith⟩

end Bound

/-- How many keys are verified between two times. -/
def verifiedBetween (p : KeyPlatform) (apiKeys : List ApiKeyRecord) (actions : List AuthAction)
    (first last : ℚ) : ℕ :=
  Clocked.occurrences (AuthState.step p apiKeys)
    (fun s a => s.Verifies a ∧ first ≤ a.now ∧ a.now ≤ last) {} actions

/-- In any window of time no more keys are verified than the limiter has tokens for. -/
def GuessesBounded (p : KeyPlatform) (apiKeys : List ApiKeyRecord) (actions : List AuthAction) :
    Prop :=
  ∀ start length, 0 ≤ length →
    (verifiedBetween p apiKeys actions start (start + length) : ℚ) ≤ 10 + 1 / 5 * length

/-- Where every check that passes is covered, the guesses of a client are bounded. -/
theorem guesses_bounded_of_covered {p : KeyPlatform} {apiKeys : List ApiKeyRecord}
    (client : String) {actions : List AuthAction}
    (hclock : actions.Pairwise fun a b => a.now ≤ b.now)
    (hguess : ∀ a ∈ actions, Guesses p apiKeys client a)
    (hcovered : Guarded (AuthState.step p apiKeys) AuthState.CheckCovered {} actions) :
    GuessesBounded p apiKeys actions := by
  obtain ⟨first, horder⟩ := Clocked.exists_inOrder hclock
  have hempty : Paid p apiKeys client first {} :=
    ⟨RateLimiter.sane_nil first, fun e he => absurd he List.not_mem_nil,
      fun c hc => absurd hc List.not_mem_nil, RateLimiter.capacity_nonneg⟩
  have hnonneg : ∀ now s, Paid p apiKeys client now s → (0 : ℚ) ≤
      failureLimiter.level s.store.failures now client - s.standing client AuthStage.owes := by
    intro now s h
    have hle : s.standing client AuthStage.owes ≤ s.underWay client := by
      refine List.countP_mono_left fun c _ hc => ?_
      simp only [decide_eq_true_eq] at hc ⊢
      exact ⟨hc.1, Bool.or_eq_true_iff.mpr (.inr hc.2)⟩
    have hcast : (s.standing client AuthStage.owes : ℚ) ≤ s.underWay client := by
      exact_mod_cast hle
    linarith [h.paid]
  have hcapacity : ∀ now s, Paid p apiKeys client now s →
      failureLimiter.level s.store.failures now client - s.standing client AuthStage.owes ≤
        failureLimiter.capacity := by
    intro now s _
    have hle : failureLimiter.level s.store.failures now client ≤ failureLimiter.capacity :=
      RateLimiter.level_le_capacity client
    have howed : (0 : ℚ) ≤ s.standing client AuthStage.owes := Nat.cast_nonneg _
    linarith
  have henabled : ∀ (s : AuthState) a, s.Verifies a → ∃ s', s.step p apiKeys a = some s' := by
    rintro s ⟨move, now⟩ h
    cases move with
    | arrive from_ rawKey => exact h.elim
    | advance i =>
        obtain ⟨c, hc, hverifying⟩ := h
        obtain ⟨client', rawKey, stage⟩ := c
        cases stage with
        | admitted key =>
            have hget : s.calls[i]? = some ⟨client', rawKey, .admitted key⟩ := hc
            refine ⟨⟨s.store, s.calls.set i ⟨client', rawKey, verifyKey p apiKeys key⟩⟩, ?_⟩
            unfold AuthState.step
            dsimp only
            rw [hget]
            rfl
        | _ => cases hverifying
  intro start length hlength
  have hwindow : start ≤ start + length := by linarith
  have hbound := Clocked.occurrences_le_of_potential (pays_verifications p apiKeys client)
    hnonneg hcapacity failureLimiter.refill_pos.le (fun _ _ _ h hle => h.later hle) henabled
    hempty horder (hcovered.and_mem hguess) hwindow
  rwa [add_sub_cancel_left] at hbound

/-- Calls that arrive together and then take each step one after the other. -/
def together (client key : String) (n : ℕ) (now : ℚ) (rounds : ℕ) : List AuthAction :=
  List.replicate n ⟨.arrive client (some key), now⟩ ++
    (List.replicate rounds (List.range n)).flatten.map fun i => ⟨.advance i, now⟩

def plainKeys : KeyPlatform where
  fingerprint := id
  verify raw keyHash := raw == keyHash

def oneKey : List ApiKeyRecord := [⟨"bootstrap-admin", "secret", "admin"⟩]

/-- Two calls at a time, from check to charge. -/
theorem together_guesses_bounded : GuessesBounded plainKeys oneKey
    (together "10.0.0.1" "guess" 2 0 4 ++
      [⟨.arrive "10.0.0.1" (some "guess"), 1⟩, ⟨.advance 2, 1⟩, ⟨.advance 2, 2⟩]) := by
  refine guesses_bounded_of_covered "10.0.0.1" ?_ ?_ ?_
  · decide +kernel
  · decide +kernel
  · decide +kernel

/-- Eleven calls that check at once are all let through to the verification. -/
theorem together_not_bounded :
    (together "10.0.0.1" "guess" 11 0 3).Pairwise (fun a b => a.now ≤ b.now) ∧
    (∀ a ∈ together "10.0.0.1" "guess" 11 0 3, Guesses plainKeys oneKey "10.0.0.1" a) ∧
    (run (AuthState.step plainKeys oneKey) {} (together "10.0.0.1" "guess" 11 0 3)).isSome ∧
    ¬ GuessesBounded plainKeys oneKey (together "10.0.0.1" "guess" 11 0 3) := by
  refine ⟨by decide +kernel, by decide +kernel, by decide +kernel, fun h => ?_⟩
  have hcount : verifiedBetween plainKeys oneKey (together "10.0.0.1" "guess" 11 0 3) 0 (0 + 0) =
      11 := by
    decide +kernel
  have hbound := h 0 0 le_rfl
  rw [hcount] at hbound
  norm_num at hbound

end NeuroForge
