/-
  `require_role` of `auth.py`, and what the three roles keep apart.

  Every endpoint asks for a role: reading for a viewer, the pipeline for an operator, a change
  of production and a new API key for an admin. The calls of all clients are authenticated
  together, step by step as in the model of `get_principal`. Endpoints are served one after
  another, each to its end: what two sessions of the database do to each other is the subject
  of `Service.Concurrent`, not of this module. A call is a principal only by a key that opens
  a stored record with its name and role (`Vouched`), also where a verified key is remembered.
  So every approval is signed with the name of an admin whose key was presented for it
  (`approvals_signed`), and where no admin's key is presented neither production nor the keys
  change (`confined_without_admin_key`). Bodies of replies and the audit log are left out.
-/
import NeuroForge.Service.Authentication
import NeuroForge.Service.StatusHistory

namespace NeuroForge

open Database

/-! ## Roles -/

/-- `ROLE_RANK` -/
def roleRank : Dict String ℕ := [("viewer", 0), ("operator", 1), ("admin", 2)]

/-- `ROLE_RANK.get(role, -1)` -/
def rankOf (role : String) : ℤ := ((Dict.get? roleRank role).map Int.ofNat).getD (-1)

def requireRole (minimumRole : String) (principal : Principal) : Except HttpError Principal :=
  if rankOf principal.role < rankOf minimumRole then
    .error ⟨403, s!"role '{principal.role}' cannot perform an action requiring " ++
      s!"'{minimumRole}'"⟩
  else .ok principal

/-- A role the body of a request can name. -/
abbrev Role := { role : String // role ∈ Dict.keys roleRank }

/-- A name with 1 to 100 characters. -/
abbrev ApiKeyName := { name : String // 1 ≤ name.length ∧ name.length ≤ 100 }

inductive Endpoint where
  | request (request : Request)
  | createApiKey (name : ApiKeyName) (role : Role)
  /-- one that only reads -/
  | read

/-- The role each endpoint is declared with. -/
def Endpoint.minimumRole : Endpoint → String
  | .request (.finalizePromotion _ _ _) | .request (.rollbackPromotion _ _) => "admin"
  | .request _ => "operator"
  | .createApiKey _ _ => "admin"
  | .read => "viewer"

/-- A change of production is signed with the caller's own name. -/
def Request.signedBy (name : String) : Request → Request
  | .finalizePromotion genomeHash experimentId _ => .finalizePromotion genomeHash experimentId name
  | .rollbackPromotion systemId _ => .rollbackPromotion systemId name
  | request => request

/-- What mints and hashes keys: `hash_key`, with the salt it draws. -/
structure KeyMint extends KeyPlatform where
  hashKey : String → String → String

/-! ## The service behind its keys -/

structure ApiCall where
  auth : AuthCall
  endpoint : Endpoint
  reply : Option Reply := none

structure AccessState where
  store : AuthStore := {}
  calls : List ApiCall := []
  apiKeys : List ApiKeyRecord := []
  db : Database := {}

inductive AccessMove where
  /-- the key of the environment, if any, or one that is generated -/
  | bootstrap (environment : Option String) (generated salt : String)
  | arrive (client : String) (rawKey : Option String) (endpoint : Endpoint)
  /-- the next step of `get_principal` -/
  | authenticate (i : ℕ)
  /-- the endpoint, with a key in case it makes one -/
  | serve (i : ℕ) (generated salt : String)

/-- A move, with the clock of the limiters and the one of the database. -/
structure AccessAction where
  move : AccessMove
  now : ℚ
  wall : ℕ

namespace AccessState

variable (m : KeyMint) (p : Platform)

/-- `bootstrap_default_key` -/
def bootstrapDefaultKey (s : AccessState) (environment : Option String)
    (generated salt : String) : AccessState :=
  match s.apiKeys with
  | [] =>
      let rawKey := (environment.filter fun key => key ≠ "").getD generated
      { s with apiKeys := [⟨"bootstrap-admin", m.hashKey salt rawKey, "admin"⟩] }
  | _ :: _ => s

def answer (s : AccessState) (i : ℕ) (c : ApiCall) (reply : Reply) : AccessState :=
  { s with calls := s.calls.set i { c with reply := some reply } }

/-- What an endpoint does for a principal it admits. -/
def perform (s : AccessState) (i : ℕ) (c : ApiCall) (principal : Principal) (wall : ℕ)
    (generated salt : String) : Option AccessState :=
  match c.endpoint with
  | .request request =>
      let t : Timed := ⟨wall, request.signedBy principal.name⟩
      (serialStep p s.db t).map fun db => { s.answer i c (serve p s.db t).1 with db }
  | .createApiKey name role => some
      { s.answer i c none with
        apiKeys := s.apiKeys ++ [⟨name.1, m.hashKey salt generated, role.1⟩] }
  | .read => some (s.answer i c none)

def step (s : AccessState) (a : AccessAction) : Option AccessState :=
  match a.move with
  | .bootstrap environment generated salt =>
      some (s.bootstrapDefaultKey m environment generated salt)
  | .arrive client rawKey endpoint =>
      some { s with calls := s.calls ++ [{ auth := { client, rawKey }, endpoint }] }
  | .authenticate i => (s.calls[i]?).bind fun c =>
      (c.auth.next m.toKeyPlatform s.apiKeys s.store a.now).map fun r =>
        { s with
          store := r.1
          calls := s.calls.set i { c with auth := { c.auth with stage := r.2 } } }
  | .serve i generated salt => (s.calls[i]?).bind fun c =>
      match c.reply, c.auth.stage with
      | none, .answered (.error e) => some (s.answer i c (some e))
      | none, .answered (.ok principal) =>
          match requireRole c.endpoint.minimumRole principal with
          | .error e => some (s.answer i c (some e))
          | .ok principal => s.perform m p i c principal a.wall generated salt
      | _, _ => none

end AccessState

theorem requireRole_ok {minimumRole : String} {principal principal' : Principal}
    (h : requireRole minimumRole principal = .ok principal') :
    principal' = principal ∧ rankOf minimumRole ≤ rankOf principal.role := by
  unfold requireRole at h
  split_ifs at h with hrank
  exact ⟨(Except.ok.inj h).symm, not_lt.mp hrank⟩

/-- Only an admin has the rank of one. -/
theorem eq_admin_of_rankOf {role : String} (h : rankOf "admin" ≤ rankOf role) :
    role = "admin" := by
  have hadmin : rankOf "admin" = 2 := by decide
  rw [hadmin] at h
  by_contra hne
  unfold rankOf roleRank at h
  rw [Dict.get?_cons, Dict.get?_cons, Dict.get?_cons] at h
  split_ifs at h with hviewer hoperator hother
  · exact absurd h (by decide)
  · exact absurd h (by decide)
  · exact hne hother.symm
  · rw [Dict.get?_nil] at h
    exact absurd h (by decide)

/-! ## What vouches for a principal -/

section Vouched

variable (p : KeyPlatform)

/-- The key has the fingerprint of one that the stored hash verifies. -/
def KeyPlatform.Opens (record : ApiKeyRecord) (key : String) : Prop :=
  ∃ verified, p.fingerprint verified = p.fingerprint key ∧
    p.verify verified record.keyHash = true

/-- A stored record with the principal's name and role that the key opens. -/
def VouchedBy (apiKeys : List ApiKeyRecord) (rawKey : Option String) (principal : Principal) :
    Prop :=
  ∃ key ∈ rawKey, ∃ record ∈ apiKeys,
    principal = ⟨record.name, record.role⟩ ∧ p.Opens record key

def AuthStage.Vouched (apiKeys : List ApiKeyRecord) (rawKey : Option String) :
    AuthStage → Prop
  | .cached principal _ | .answered (.ok principal) => VouchedBy p apiKeys rawKey principal
  | .admitted key => rawKey = some key
  | .matched key record =>
      rawKey = some key ∧ record ∈ apiKeys ∧ p.verify key record.keyHash = true
  | .remembered record => VouchedBy p apiKeys rawKey ⟨record.name, record.role⟩
  | _ => True

/-- The verified keys are those of stored records. -/
def AuthStore.Vouched (apiKeys : List ApiKeyRecord) (store : AuthStore) : Prop :=
  ∀ e ∈ store.verified, ∃ record ∈ apiKeys, e.2.name = record.name ∧ e.2.role = record.role ∧
    ∃ key, p.fingerprint key = e.1 ∧ p.verify key record.keyHash = true

end Vouched

section Steps

variable {p : KeyPlatform} {apiKeys apiKeys' : List ApiKeyRecord}

theorem VouchedBy.mono (hsub : apiKeys ⊆ apiKeys') {rawKey : Option String}
    {principal : Principal} (h : VouchedBy p apiKeys rawKey principal) :
    VouchedBy p apiKeys' rawKey principal := by
  obtain ⟨key, hkey, record, hmem, hprincipal⟩ := h
  exact ⟨key, hkey, record, hsub hmem, hprincipal⟩

theorem AuthStage.Vouched.mono (hsub : apiKeys ⊆ apiKeys') {rawKey : Option String}
    {stage : AuthStage} (h : stage.Vouched p apiKeys rawKey) :
    stage.Vouched p apiKeys' rawKey := by
  unfold AuthStage.Vouched at h ⊢
  split at h
  · exact VouchedBy.mono hsub h
  · exact VouchedBy.mono hsub h
  · exact h
  · exact ⟨h.1, hsub h.2.1, h.2.2⟩
  · exact VouchedBy.mono hsub h
  · trivial

theorem AuthStore.Vouched.mono (hsub : apiKeys ⊆ apiKeys') {store : AuthStore}
    (h : store.Vouched p apiKeys) : store.Vouched p apiKeys' := by
  intro e he
  obtain ⟨record, hmem, hrecord⟩ := h e he
  exact ⟨record, hsub hmem, hrecord⟩

theorem lookUpKey_vouched {store : AuthStore} (key : String) (now : ℚ)
    (h : store.Vouched p apiKeys) :
    (lookUpKey p store key now).1.Vouched p apiKeys ∧
      (lookUpKey p store key now).2.Vouched p apiKeys (some key) := by
  unfold lookUpKey cachedPrincipal
  cases hget : Dict.get? store.verified (p.fingerprint key) with
  | none => exact ⟨h, trivial⟩
  | some entry =>
      dsimp only
      split_ifs
      · exact ⟨fun e he => h e (List.mem_of_mem_filter he), trivial⟩
      · obtain ⟨record, hmem, hname, hrole, key', hprint, hverify⟩ :=
          h _ (Dict.mem_of_get? hget)
        refine ⟨h, key, rfl, record, hmem, ?_, key', hprint, hverify⟩
        exact congrArg₂ Principal.mk hname hrole

theorem givenKey_eq_some {rawKey : Option String} {key : String}
    (h : givenKey rawKey = some key) : rawKey = some key :=
  (Option.filter_eq_some_iff.mp h).1

/-- The store that remembers the key of a stored record. -/
theorem remember_vouched {store : AuthStore} {key : String} {record : ApiKeyRecord} {now : ℚ}
    (h : store.Vouched p apiKeys) (hmem : record ∈ apiKeys)
    (hverify : p.verify key record.keyHash = true) :
    AuthStore.Vouched p apiKeys
      { store with verified := remember store.verified (p.fingerprint key) record now } := by
  intro e he
  rcases Dict.mem_set he with rfl | hold
  · exact ⟨record, hmem, rfl, rfl, key, rfl, hverify⟩
  · refine h e ?_
    split_ifs at hold
    · exact List.mem_of_mem_tail hold
    · exact hold

theorem grant_vouched {store : AuthStore} {keyHash : String} {principal : Principal} {now : ℚ}
    {rawKey : Option String} (hstore : store.Vouched p apiKeys)
    (h : VouchedBy p apiKeys rawKey principal) :
    (grant store keyHash principal now).1.Vouched p apiKeys ∧
      (grant store keyHash principal now).2.Vouched p apiKeys rawKey := by
  refine ⟨hstore, ?_⟩
  unfold grant
  dsimp only
  split_ifs
  · exact h
  · trivial

theorem checkThrottle_vouched {store : AuthStore} {c : AuthCall} {now : ℚ}
    (hstore : store.Vouched p apiKeys) :
    (checkThrottle store c now).1.Vouched p apiKeys ∧
      (checkThrottle store c now).2.Vouched p apiKeys c.rawKey := by
  refine ⟨hstore, ?_⟩
  unfold checkThrottle
  dsimp only
  split_ifs
  · trivial
  · cases hgiven : givenKey c.rawKey with
    | none => trivial
    | some key => exact givenKey_eq_some hgiven

theorem verifyKey_vouched {key : String} :
    (verifyKey p apiKeys key).Vouched p apiKeys (some key) := by
  unfold verifyKey
  cases hfind : apiKeys.find? fun record => p.verify key record.keyHash with
  | none => trivial
  | some record =>
      have hverify := List.find?_some hfind
      exact ⟨rfl, List.mem_of_find?_eq_some hfind, hverify⟩

/-- One step of a call keeps what vouches for the verified keys and for the call. -/
theorem next_vouched {store store' : AuthStore} {c : AuthCall} {now : ℚ} {stage' : AuthStage}
    (hstore : store.Vouched p apiKeys) (hstage : c.stage.Vouched p apiKeys c.rawKey)
    (h : c.next p apiKeys store now = some (store', stage')) :
    store'.Vouched p apiKeys ∧ stage'.Vouched p apiKeys c.rawKey := by
  obtain ⟨client, rawKey, stage⟩ := c
  cases stage with
  | arrived =>
      cases hgiven : givenKey rawKey with
      | none =>
          simp only [AuthCall.next, hgiven, Option.elim_none] at h
          cases h
          exact ⟨hstore, trivial⟩
      | some key =>
          simp only [AuthCall.next, hgiven, Option.elim_some] at h
          have hlook := lookUpKey_vouched key now hstore
          rw [Option.some.inj h, ← givenKey_eq_some hgiven] at hlook
          exact hlook
  | cached principal keyHash =>
      cases h
      exact grant_vouched hstore hstage
  | unchecked =>
      cases h
      exact checkThrottle_vouched hstore
  | admitted key =>
      cases h
      obtain rfl : rawKey = some key := hstage
      exact ⟨hstore, verifyKey_vouched⟩
  | matched key record =>
      cases h
      obtain ⟨rfl, hmem, hverify⟩ := hstage
      exact ⟨remember_vouched hstore hmem hverify, key, rfl, record, hmem, rfl, key, rfl, hverify⟩
  | remembered record =>
      cases h
      exact grant_vouched hstore hstage
  | keyless | mismatched =>
      cases h
      exact ⟨hstore, trivial⟩
  | answered response => cases h

end Steps

/-! ## What a move does -/

namespace AccessState

/-- The call at `i` is a principal that the role of its endpoint admits. -/
structure Admits (s : AccessState) (i : ℕ) (c : ApiCall) (principal : Principal) : Prop where
  call : s.calls[i]? = some c
  open_ : c.reply = none
  answered : c.auth.stage = .answered (.ok principal)
  rank : rankOf c.endpoint.minimumRole ≤ rankOf principal.role

/-- What a move can do. -/
inductive Did (m : KeyMint) (p : Platform) (s : AccessState) (a : AccessAction) :
    AccessState → Prop
  | unchanged : Did m p s a s
  | bootstrapped (hnone : s.apiKeys = []) (keyHash : String) :
      Did m p s a { s with apiKeys := [⟨"bootstrap-admin", keyHash, "admin"⟩] }
  | arrived {client : String} {rawKey : Option String} {endpoint : Endpoint}
      (hmove : a.move = .arrive client rawKey endpoint) :
      Did m p s a { s with calls := s.calls ++ [{ auth := { client, rawKey }, endpoint }] }
  | authenticated {i : ℕ} {c : ApiCall} {store : AuthStore} {stage : AuthStage}
      (hcall : s.calls[i]? = some c)
      (hnext : c.auth.next m.toKeyPlatform s.apiKeys s.store a.now = some (store, stage)) :
      Did m p s a { s with
        store
        calls := s.calls.set i { c with auth := { c.auth with stage := stage } } }
  | answered {i : ℕ} {c : ApiCall} (hcall : s.calls[i]? = some c) (hopen : c.reply = none)
      (reply : Reply) : Did m p s a (s.answer i c reply)
  | requested {i : ℕ} {c : ApiCall} {principal : Principal} {request : Request}
      {db : Database} (hadmits : s.Admits i c principal)
      (hendpoint : c.endpoint = .request request)
      (hserved : serialStep p s.db ⟨a.wall, request.signedBy principal.name⟩ = some db) :
      Did m p s a
        { s.answer i c (serve p s.db ⟨a.wall, request.signedBy principal.name⟩).1 with db }
  | keyCreated {i : ℕ} {c : ApiCall} {principal : Principal} {name : ApiKeyName} {role : Role}
      (hadmits : s.Admits i c principal) (hendpoint : c.endpoint = .createApiKey name role)
      (keyHash : String) :
      Did m p s a { s.answer i c none with apiKeys := s.apiKeys ++ [⟨name.1, keyHash, role.1⟩] }

variable {m : KeyMint} {p : Platform} {s s' : AccessState} {a : AccessAction}

theorem perform_did {i : ℕ} {c : ApiCall} {principal : Principal} {generated salt : String}
    (hadmits : s.Admits i c principal)
    (h : s.perform m p i c principal a.wall generated salt = some s') : Did m p s a s' := by
  unfold perform at h
  split at h
  · rename_i request hendpoint
    obtain ⟨db, hserved, rfl⟩ := Option.map_eq_some_iff.mp h
    exact .requested hadmits hendpoint hserved
  · rename_i name role hendpoint
    cases h
    exact .keyCreated hadmits hendpoint _
  · cases h
    exact .answered hadmits.call hadmits.open_ none

theorem step_did (h : s.step m p a = some s') : Did m p s a s' := by
  unfold step at h
  split at h
  · -- the first key is made once
    rename_i environment generated salt _
    cases h
    unfold bootstrapDefaultKey
    split
    · rename_i hnone
      exact .bootstrapped hnone _
    · exact .unchanged
  · rename_i client rawKey endpoint hmove
    cases h
    exact .arrived hmove
  · obtain ⟨c, hcall, h⟩ := Option.bind_eq_some_iff.mp h
    obtain ⟨⟨store, stage⟩, hnext, rfl⟩ := Option.map_eq_some_iff.mp h
    exact .authenticated hcall hnext
  · obtain ⟨c, hcall, h⟩ := Option.bind_eq_some_iff.mp h
    split at h
    · rename_i hopen _
      cases h
      exact .answered hcall hopen _
    · rename_i principal hopen hanswered
      split at h
      · cases h
        exact .answered hcall hopen _
      · rename_i admitted hrole
        obtain ⟨rfl, hrank⟩ := requireRole_ok hrole
        exact perform_did ⟨hcall, hopen, hanswered, hrank⟩ h
    · cases h

/-- Keys are only added. -/
theorem Did.apiKeys_subset (h : Did m p s a s') : s.apiKeys ⊆ s'.apiKeys := by
  cases h with
  | bootstrapped hnone =>
      rw [hnone]
      exact List.nil_subset _
  | keyCreated => exact List.subset_append_left _ _
  | _ => exact List.Subset.refl _

/-! ## Every principal has a key -/

/-- What vouches for the remembered keys and for every call. -/
structure Vouched (m : KeyMint) (s : AccessState) : Prop where
  store : s.store.Vouched m.toKeyPlatform s.apiKeys
  calls : ∀ c ∈ s.calls, c.auth.stage.Vouched m.toKeyPlatform s.apiKeys c.auth.rawKey

/-- Where a call is replaced by one of the same key whose stage is vouched for. -/
theorem Vouched.replace {apiKeys : List ApiKeyRecord} {calls : List ApiCall} {i : ℕ}
    {c : ApiCall} (h : ∀ c ∈ calls, c.auth.stage.Vouched m.toKeyPlatform apiKeys c.auth.rawKey)
    (hc : c.auth.stage.Vouched m.toKeyPlatform apiKeys c.auth.rawKey) :
    ∀ c' ∈ calls.set i c, c'.auth.stage.Vouched m.toKeyPlatform apiKeys c'.auth.rawKey := by
  intro c' hc'
  rcases List.mem_or_eq_of_mem_set hc' with hold | rfl
  · exact h c' hold
  · exact hc

theorem Did.vouched (hdid : Did m p s a s') (h : s.Vouched m) : s'.Vouched m := by
  have hsub := hdid.apiKeys_subset
  have hcalls : ∀ c ∈ s.calls, c.auth.stage.Vouched m.toKeyPlatform s'.apiKeys c.auth.rawKey :=
    fun c hc => (h.calls c hc).mono hsub
  have hstore : s.store.Vouched m.toKeyPlatform s'.apiKeys := h.store.mono hsub
  cases hdid with
  | unchanged => exact h
  | bootstrapped hnone keyHash => exact ⟨hstore, hcalls⟩
  | arrived hmove =>
      refine ⟨hstore, fun c hc => ?_⟩
      rcases List.mem_append.mp hc with hold | hnew
      · exact hcalls c hold
      · rw [List.mem_singleton.mp hnew]
        trivial
  | authenticated hcall hnext =>
      obtain ⟨hstore', hstage⟩ :=
        next_vouched hstore (hcalls _ (List.mem_of_getElem? hcall)) hnext
      exact ⟨hstore', Vouched.replace hcalls hstage⟩
  | answered hcall _ reply =>
      have hc := hcalls _ (List.mem_of_getElem? hcall)
      exact ⟨hstore, Vouched.replace hcalls hc⟩
  | requested hadmits _ _ =>
      have hc := hcalls _ (List.mem_of_getElem? hadmits.call)
      exact ⟨hstore, Vouched.replace hcalls hc⟩
  | keyCreated hadmits _ _ =>
      have hc := hcalls _ (List.mem_of_getElem? hadmits.call)
      exact ⟨hstore, Vouched.replace hcalls hc⟩

/-- The key of an admitted call opens a record of the role its endpoint asks for. -/
theorem Admits.vouchedBy {i : ℕ} {c : ApiCall} {principal : Principal}
    (h : s.Admits i c principal) (hvouched : s.Vouched m) :
    VouchedBy m.toKeyPlatform s.apiKeys c.auth.rawKey principal := by
  have hstage := hvouched.calls c (List.mem_of_getElem? h.call)
  rw [h.answered] at hstage
  exact hstage

/-! ## Signatures -/

/-- The request is the change of production that the row records. -/
def RecordedBy (db : Database) (row : PromotionApprovalRecord) : Request → Prop
  | .finalizePromotion genomeHash experimentId _ =>
      row.action = some .promote ∧ row.genomeHash = genomeHash ∧ row.experimentId = experimentId
  | .rollbackPromotion systemId _ =>
      row.action = some .rollback ∧ systemOf db row.genomeHash = some systemId ∧
        row.experimentId = none
  | _ => False

/-- The call asked for the change of production that the row records, with the key of a stored
    admin of the name the row is signed with, and was served. -/
structure SignedFor (m : KeyMint) (s : AccessState) (row : PromotionApprovalRecord)
    (c : ApiCall) : Prop where
  asked : ∃ request, c.endpoint = .request request ∧ RecordedBy s.db row request
  served : c.reply = some none
  key : VouchedBy m.toKeyPlatform s.apiKeys c.auth.rawKey ⟨row.approvedBy, "admin"⟩

/-- Every approval has the signature of a call, and no two that of one call. -/
def Signed (m : KeyMint) (s : AccessState) : Prop :=
  ∃ signers : List ℕ, signers.Nodup ∧ List.Forall₂
    (fun row i => ∃ c, s.calls[i]? = some c ∧ s.SignedFor m row c) s.db.approvals signers

/-- The two requests an admin is needed for are the changes of production. -/
theorem isProductionChange_iff (request : Request) :
    request.IsProductionChange ↔ Endpoint.minimumRole (.request request) = "admin" := by
  cases request <;> simp [Request.IsProductionChange, Endpoint.minimumRole]

theorem isProductionChange_signedBy (name : String) (request : Request) :
    (request.signedBy name).IsProductionChange ↔ request.IsProductionChange := by
  cases request <;> exact Iff.rfl

/-- A genome stays one of its application. -/
theorem systemOf_served {db db' : Database} {now : ℕ} {request : Request} (hsound : Sound p db)
    (hserved : Served p db now request db') (hposs : Possible db request)
    {hash systemId : String} (h : systemOf db hash = some systemId) :
    systemOf db' hash = some systemId := by
  by_cases hchange : request.IsProductionChange
  · cases hserved with
    | unchanged => exact h
    | promoted | rolledBack =>
        exact (KeepsLog.of_eraseStatus (eraseStatus_reconcile _)).systemOf (by simpa using h)
    | _ => exact absurd hchange id
  · exact (hserved.preserves hsound.wellFormed hposs hchange).2.log.systemOf h

/-- A row that is added is that of the change of production that is asked for, under the name
    it is asked in. -/
theorem approvals_of_served {db db' : Database} {now : ℕ} {name : String} {request : Request}
    (hchange : request.IsProductionChange)
    (h : Served p db now (request.signedBy name) db') :
    db'.approvals = db.approvals ∨
      ∃ row, row.approvedBy = name ∧ RecordedBy db row request ∧
        db'.approvals = db.approvals ++ [row] := by
  cases request with
  | finalizePromotion genomeHash experimentId approvedBy =>
      cases h with
      | unchanged => exact .inl rfl
      | @promoted _ _ _ genome hrow hstatus hasked =>
          refine .inr ⟨⟨db.approvals.length + 1, genome.hash, experimentId, name, some .promote,
            now⟩, rfl, ⟨rfl, hasked, rfl⟩, ?_⟩
          rw [approvals_of_eraseStatus (eraseStatus_reconcile _)]
          rfl
  | rollbackPromotion systemId approvedBy =>
      cases h with
      | unchanged => exact .inl rfl
      | @rolledBack _ _ current hcurrent =>
          refine .inr ⟨⟨db.approvals.length + 1, current.hash, none, name, some .rollback,
            now⟩, rfl, ⟨rfl, systemOf_champion hcurrent, rfl⟩, ?_⟩
          rw [approvals_of_eraseStatus (eraseStatus_reconcile _)]
          rfl
  | _ => exact absurd hchange id

theorem approvals_of_serialStep {db db' : Database} {now : ℕ} {name : String}
    {request : Request} (hsound : Sound p db)
    (h : serialStep p db ⟨now, request.signedBy name⟩ = some db') :
    db'.approvals = db.approvals ∨
      ((serve p db ⟨now, request.signedBy name⟩).1 = none ∧ request.IsProductionChange ∧
        ∃ row, row.approvedBy = name ∧ RecordedBy db row request ∧
          db'.approvals = db.approvals ++ [row]) := by
  obtain ⟨hposs, hserved⟩ := serialStep_did h
  have hdb : (serve p db ⟨now, request.signedBy name⟩).2 = db' := by
    unfold serialStep at h
    split_ifs at h
    exact Option.some.inj h
  by_cases hrefused : (serve p db ⟨now, request.signedBy name⟩).1 = none
  · by_cases hchange : request.IsProductionChange
    · rcases approvals_of_served hchange hserved with hsame | hrow
      · exact .inl hsame
      · exact .inr ⟨hrefused, hchange, hrow⟩
    · have hpreserves := (hserved.preserves hsound.wellFormed hposs
        (mt (isProductionChange_signedBy name request).mp hchange)).2
      exact .inl hpreserves.log.approvals
  · rw [← hdb]
    exact .inl (refused_unchanged hrefused).1

/-- What a signature rests on stays: the keys, the application of a genome, and the calls that
    were served. -/
structure KeepsServed (s s' : AccessState) : Prop where
  keys : s.apiKeys ⊆ s'.apiKeys
  systems : ∀ hash systemId, systemOf s.db hash = some systemId →
    systemOf s'.db hash = some systemId
  calls : ∀ (i : ℕ) (c : ApiCall), s.calls[i]? = some c → c.reply = some none →
    ∃ c', s'.calls[i]? = some c' ∧ c'.endpoint = c.endpoint ∧ c'.reply = c.reply ∧
      c'.auth.rawKey = c.auth.rawKey

theorem RecordedBy.keep {db db' : Database} (hsystems : ∀ hash systemId,
    systemOf db hash = some systemId → systemOf db' hash = some systemId)
    {row : PromotionApprovalRecord} {request : Request} (h : RecordedBy db row request) :
    RecordedBy db' row request := by
  cases request with
  | finalizePromotion => exact h
  | rollbackPromotion systemId => exact ⟨h.1, hsystems _ _ h.2.1, h.2.2⟩
  | _ => exact h

theorem KeepsServed.signedFor (hkeeps : KeepsServed s s') {row : PromotionApprovalRecord}
    {i : ℕ} (h : ∃ c, s.calls[i]? = some c ∧ s.SignedFor m row c) :
    ∃ c, s'.calls[i]? = some c ∧ s'.SignedFor m row c := by
  obtain ⟨c, hc, ⟨request, hendpoint, hrecorded⟩, hserved, hkey⟩ := h
  obtain ⟨c', hc', hendpoint', hreply', hkey'⟩ := hkeeps.calls i c hc hserved
  refine ⟨c', hc', ⟨request, hendpoint'.trans hendpoint, hrecorded.keep hkeeps.systems⟩,
    hreply'.trans hserved, ?_⟩
  rw [hkey']
  exact hkey.mono hkeeps.keys

theorem Signed.keep (h : s.Signed m) (hkeeps : KeepsServed s s')
    (hsame : s'.db.approvals = s.db.approvals) : s'.Signed m := by
  obtain ⟨signers, hnodup, hsigned⟩ := h
  refine ⟨signers, hnodup, ?_⟩
  rw [hsame]
  exact hsigned.imp fun row i hrow => hkeeps.signedFor hrow

/-- A call that was open signs one more row. -/
theorem Signed.add (h : s.Signed m) (hkeeps : KeepsServed s s') {row : PromotionApprovalRecord}
    (hrows : s'.db.approvals = s.db.approvals ++ [row]) {i : ℕ} {c c' : ApiCall}
    (hcall : s.calls[i]? = some c) (hopen : c.reply = none) (hcall' : s'.calls[i]? = some c')
    (hsigned : s'.SignedFor m row c') : s'.Signed m := by
  obtain ⟨signers, hnodup, hall⟩ := h
  refine ⟨signers ++ [i], ?_, ?_⟩
  · -- no row is signed by a call that is still open
    refine List.nodup_append.mpr ⟨hnodup, List.nodup_singleton i, ?_⟩
    rintro j hj k hk rfl
    obtain rfl := List.mem_singleton.mp hk
    obtain ⟨n, hn, rfl⟩ := List.mem_iff_getElem.mp hj
    obtain ⟨c'', hc'', hsigned'⟩ := hall.get (hall.length_eq ▸ hn) hn
    dsimp only [List.get_eq_getElem] at hc''
    rw [hcall] at hc''
    rw [Option.some.inj hc'', hsigned'.served] at hopen
    cases hopen
  · rw [hrows]
    exact List.rel_append (hall.imp fun row i hrow => hkeeps.signedFor hrow)
      (.cons ⟨c', hcall', hsigned⟩ .nil)

theorem Did.keepsServed (hdid : Did m p s a s') (hsound : Sound p s.db) : KeepsServed s s' where
  keys := hdid.apiKeys_subset
  systems := by
    intro hash systemId hsystem
    cases hdid with
    | requested _ _ hserved =>
        obtain ⟨hposs, hdid⟩ := serialStep_did hserved
        exact systemOf_served hsound hdid hposs hsystem
    | _ => exact hsystem
  calls := by
    intro j c hc hserved
    -- an open call that is replaced is another one
    have hset : ∀ {i : ℕ} {x y : ApiCall}, s.calls[i]? = some x → x.reply = none →
        ∃ c', (s.calls.set i y)[j]? = some c' ∧ c'.endpoint = c.endpoint ∧
          c'.reply = c.reply ∧ c'.auth.rawKey = c.auth.rawKey := by
      intro i x y hx hopen
      have hne : i ≠ j := by
        rintro rfl
        rw [Option.some.inj (hx.symm.trans hc), hserved] at hopen
        cases hopen
      exact ⟨c, by rw [List.getElem?_set_ne hne]; exact hc, rfl, rfl, rfl⟩
    cases hdid with
    | unchanged | bootstrapped => exact ⟨c, hc, rfl, rfl, rfl⟩
    | arrived hmove =>
        exact ⟨c, by rw [List.getElem?_append_left (List.getElem?_eq_some_iff.mp hc).1]; exact hc,
          rfl, rfl, rfl⟩
    | @authenticated i x store stage hcall hnext =>
        by_cases hij : i = j
        · subst hij
          obtain rfl := Option.some.inj (hcall.symm.trans hc)
          exact ⟨_, List.getElem?_set_self (List.getElem?_eq_some_iff.mp hc).1, rfl, rfl, rfl⟩
        · exact ⟨c, by rw [List.getElem?_set_ne hij]; exact hc, rfl, rfl, rfl⟩
    | answered hcall hopen reply => exact hset hcall hopen
    | requested hadmits _ _ => exact hset hadmits.call hadmits.open_
    | keyCreated hadmits _ _ => exact hset hadmits.call hadmits.open_

theorem Did.signed (hdid : Did m p s a s') (hsound : Sound p s.db) (hvouched : s.Vouched m)
    (h : s.Signed m) : s'.Signed m := by
  have hkeeps := hdid.keepsServed hsound
  cases hdid with
  | @requested i c principal request db hadmits hendpoint hserved =>
      rcases approvals_of_serialStep hsound hserved with
        hsame | ⟨hreply, hchange, row, hname, hrecorded, hrows⟩
      · exact h.keep hkeeps hsame
      · -- the new row is signed by the call itself
        have hadmin : c.endpoint.minimumRole = "admin" := by
          rw [hendpoint]
          exact (isProductionChange_iff request).mp hchange
        have hrole : principal.role = "admin" := eq_admin_of_rankOf (hadmin ▸ hadmits.rank)
        have hkey := hadmits.vouchedBy hvouched
        have hplace : i < s.calls.length := (List.getElem?_eq_some_iff.mp hadmits.call).1
        refine h.add hkeeps hrows hadmits.call hadmits.open_ (List.getElem?_set_self hplace)
          ⟨⟨request, hendpoint, hrecorded.keep hkeeps.systems⟩, congrArg some hreply, ?_⟩
        rw [hname, ← hrole]
        exact hkey
  | _ => exact h.keep hkeeps rfl

theorem Did.sound (hdid : Did m p s a s') (h : Sound p s.db) : Sound p s'.db := by
  cases hdid with
  | requested _ _ hserved =>
      obtain ⟨hposs, hdb⟩ := serialStep_did hserved
      exact hdb.sound h hposs
  | _ => exact h

/-- What every run keeps. -/
structure Guarded (m : KeyMint) (p : Platform) (s : AccessState) : Prop where
  sound : Sound p s.db
  vouched : s.Vouched m
  signed : s.Signed m

theorem Guarded.step (h : s.Guarded m p) (hstep : s.step m p a = some s') : s'.Guarded m p where
  sound := (step_did hstep).sound h.sound
  vouched := (step_did hstep).vouched h.vouched
  signed := (step_did hstep).signed h.sound h.vouched h.signed

theorem guarded_start (m : KeyMint) (p : Platform) (apiKeys : List ApiKeyRecord) :
    Guarded m p { apiKeys } where
  sound := sound_empty p
  vouched := ⟨fun _ he => absurd he List.not_mem_nil, fun _ hc => absurd hc List.not_mem_nil⟩
  signed := ⟨[], List.nodup_nil, .nil⟩

theorem guarded_of_run {apiKeys : List ApiKeyRecord} {actions : List AccessAction}
    (h : Transition.run (step m p) { apiKeys } actions = some s) : s.Guarded m p :=
  Transition.run_invariant (fun _ _ _ hs hstep => hs.step hstep) (guarded_start m p apiKeys) h

/-- **Every approval is signed.** However the calls of all clients interleave, each row of the
    approval log was written for a call of its own: one that asked for the change of production
    that the row records, that was served, and whose key opens a stored admin record with the
    name the row is signed with. -/
theorem approvals_signed (m : KeyMint) (p : Platform) {apiKeys : List ApiKeyRecord}
    {actions : List AccessAction} {s : AccessState}
    (h : Transition.run (step m p) { apiKeys } actions = some s) :
    ∃ signers : List ℕ, signers.Nodup ∧ List.Forall₂
      (fun row i => ∃ c, s.calls[i]? = some c ∧ s.SignedFor m row c) s.db.approvals signers :=
  (guarded_of_run h).signed

/-! ## Without an admin's key -/

/-- The key, if any, opens no admin's record. -/
def Unprivileged (m : KeyMint) (apiKeys : List ApiKeyRecord) (rawKey : Option String) : Prop :=
  ∀ key ∈ rawKey, ∀ record ∈ apiKeys, record.role = "admin" →
    ¬ m.toKeyPlatform.Opens record key

/-- Nobody arrives with an admin's key. -/
def ArrivesUnprivileged (m : KeyMint) (apiKeys : List ApiKeyRecord) (a : AccessAction) : Prop :=
  ∀ client rawKey endpoint, a.move = .arrive client rawKey endpoint →
    Unprivileged m apiKeys rawKey

/-- No call that is still to be served has an admin's key. -/
def NonePrivileged (m : KeyMint) (apiKeys : List ApiKeyRecord) (s : AccessState) : Prop :=
  ∀ c ∈ s.calls, c.reply = none → Unprivileged m apiKeys c.auth.rawKey

/-- Such a call is admitted to nothing that asks for an admin. -/
theorem Admits.not_admin {i : ℕ} {c : ApiCall} {principal : Principal}
    {apiKeys : List ApiKeyRecord} (h : s.Admits i c principal) (hvouched : s.Vouched m)
    (hnone : s.NonePrivileged m apiKeys) (hsub : s.apiKeys ⊆ apiKeys) :
    c.endpoint.minimumRole ≠ "admin" := by
  intro hadmin
  have hrole : principal.role = "admin" := eq_admin_of_rankOf (hadmin ▸ h.rank)
  obtain ⟨key, hkey, record, hmem, hprincipal, hopens⟩ := h.vouchedBy hvouched
  rw [hprincipal] at hrole
  exact hnone c (List.mem_of_getElem? h.call) h.open_ key hkey record (hsub hmem) hrole hopens

theorem NonePrivileged.step {apiKeys : List ApiKeyRecord} (hdid : Did m p s a s')
    (h : s.NonePrivileged m apiKeys) (ha : ArrivesUnprivileged m apiKeys a) :
    s'.NonePrivileged m apiKeys := by
  have hanswer : ∀ (i : ℕ) (c : ApiCall) (reply : Reply) (c' : ApiCall),
      c' ∈ (s.answer i c reply).calls → c'.reply = none →
      Unprivileged m apiKeys c'.auth.rawKey := by
    intro i c reply c' hc' hopen
    rcases List.mem_or_eq_of_mem_set hc' with hold | rfl
    · exact h c' hold hopen
    · cases hopen
  cases hdid with
  | unchanged => exact h
  | bootstrapped => exact h
  | arrived hmove =>
      intro c hc hopen
      rcases List.mem_append.mp hc with hold | hnew
      · exact h c hold hopen
      · rw [List.mem_singleton.mp hnew]
        exact ha _ _ _ hmove
  | authenticated hcall hnext =>
      intro c hc hopen
      rcases List.mem_or_eq_of_mem_set hc with hold | rfl
      · exact h c hold hopen
      · have hkey := h _ (List.mem_of_getElem? hcall) hopen
        exact hkey
  | answered | requested | keyCreated => exact fun c' hc' hopen => hanswer _ _ _ c' hc' hopen

/-- The log, the statuses of production and the keys are as they were; at most the first key
    was made. -/
structure Untouched (s s' : AccessState) : Prop where
  production : Preserves s.db s'.db
  keys : s.apiKeys ≠ [] → s'.apiKeys = s.apiKeys

theorem Did.untouched {apiKeys : List ApiKeyRecord} (hdid : Did m p s a s')
    (h : s.Guarded m p) (hnone : s.NonePrivileged m apiKeys) (hsub : s.apiKeys ⊆ apiKeys) :
    Untouched s s' := by
  cases hdid with
  | bootstrapped hempty => exact ⟨Preserves.refl _, fun hne => absurd hempty hne⟩
  | @requested i c principal request db hadmits hendpoint hserved =>
      have hother := hadmits.not_admin h.vouched hnone hsub
      rw [hendpoint] at hother
      obtain ⟨hposs, hdb⟩ := serialStep_did hserved
      have hchange : ¬ (request.signedBy principal.name).IsProductionChange := by
        rw [isProductionChange_signedBy, isProductionChange_iff]
        exact hother
      exact ⟨(hdb.preserves h.sound.wellFormed hposs hchange).2, fun _ => rfl⟩
  | keyCreated hadmits hendpoint =>
      have hother := hadmits.not_admin h.vouched hnone hsub
      rw [hendpoint] at hother
      exact absurd rfl hother
  | _ => exact ⟨Preserves.refl _, fun _ => rfl⟩

theorem Untouched.trans {s₁ s₂ s₃ : AccessState} (h₁ : Untouched s₁ s₂)
    (h₂ : Untouched s₂ s₃) : Untouched s₁ s₃ where
  production := h₁.production.trans h₂.production
  keys := fun hne => (h₂.keys ((h₁.keys hne).symm ▸ hne)).trans (h₁.keys hne)

/-- **Without an admin's key nothing an admin decides changes.** From any state a service can
    be in, however the calls interleave: where no key that is presented opens an admin's
    record, the approval log, the statuses of production and the stored keys stay. -/
theorem confined_without_admin_key (m : KeyMint) (p : Platform) {apiKeys : List ApiKeyRecord}
    {before actions : List AccessAction} {s s' : AccessState}
    (hs : Transition.run (step m p) { apiKeys } before = some s)
    (h : Transition.run (step m p) s actions = some s')
    (hcalls : s.NonePrivileged m s'.apiKeys)
    (harrivals : ∀ a ∈ actions, ArrivesUnprivileged m s'.apiKeys a) :
    Untouched s s' := by
  -- what holds at a state of the run, whose keys are among those at its end
  let Inv (t : AccessState) : Prop := t.Guarded m p ∧ t.NonePrivileged m s'.apiKeys ∧
    (t.apiKeys ⊆ s'.apiKeys → Untouched s t)
  have hstart : Inv s := ⟨guarded_of_run hs, hcalls, fun _ => ⟨Preserves.refl _, fun _ => rfl⟩⟩
  have hguard : Transition.Guarded (step m p)
      (fun _ a => True ∧ ArrivesUnprivileged m s'.apiKeys a) s actions :=
    (Transition.guarded_true (step m p) s actions).and_mem harrivals
  have hinv : Inv s' := by
    refine Transition.run_invariant_of_guarded (fun t a t' ht ha hstep => ?_) hstart hguard h
    obtain ⟨hguarded, hnone, huntouched⟩ := ht
    have hdid := step_did hstep
    refine ⟨hguarded.step hstep, hnone.step hdid ha.2, fun hsub => ?_⟩
    have hearlier : t.apiKeys ⊆ s'.apiKeys := List.Subset.trans hdid.apiKeys_subset hsub
    exact (huntouched hearlier).trans (hdid.untouched hguarded hnone hearlier)
  exact hinv.2.2 (List.Subset.refl _)

section Example

def plainMint : KeyMint := { plainKeys with hashKey := fun _ key => key }

def bootstrapAction : AccessAction := ⟨.bootstrap (some "secret") "" "", 0, 0⟩

/-- The call number `i` arrives, takes `n` steps of its authentication, and is served. -/
def exampleCall (i n : ℕ) (rawKey : String) (t : Timed) : List AccessAction :=
  ⟨.arrive "client" (some rawKey) (.request t.request), 0, t.now⟩ ::
    List.replicate n ⟨.authenticate i, 0, t.now⟩ ++ [⟨.serve i "" "", 0, t.now⟩]

/-- The history of the examples, with the bootstrap key; it is verified for the first call. -/
def exampleCalls : List AccessAction :=
  bootstrapAction :: exampleHistory.zipIdx.flatMap fun e =>
    exampleCall e.2 (if e.2 = 0 then 5 else 2) "secret" e.1

/-- A guess at a key, for a promotion. -/
def exampleGuess : List AccessAction :=
  exampleCall 5 4 "guess" ⟨6, .rollbackPromotion "app" ""⟩

end Example

theorem approvals_signed_bootstrap : ∃ s,
    Transition.run (step plainMint examplePlatform) {} exampleCalls = some s ∧
      s.db.approvals.map (·.approvedBy) = ["bootstrap-admin"] ∧
      ∃ signers : List ℕ, signers.Nodup ∧ List.Forall₂
        (fun row i => ∃ c, s.calls[i]? = some c ∧ s.SignedFor plainMint row c)
        s.db.approvals signers := by
  have hrun : ((Transition.run (step plainMint examplePlatform) {} exampleCalls).map
      fun s => s.db.approvals.map (·.approvedBy)) = some ["bootstrap-admin"] := by
    decide +kernel
  obtain ⟨s, hs, happrovals⟩ := Option.map_eq_some_iff.mp hrun
  exact ⟨s, hs, happrovals, approvals_signed plainMint examplePlatform hs⟩

theorem unprivileged_guess : Unprivileged plainMint oneKey (some "guess") := by
  rintro key ⟨⟩ record hrecord - ⟨verified, hprint, hverify⟩
  rw [List.mem_singleton.mp hrecord] at hverify
  have hverified : verified = "guess" := hprint
  rw [hverified] at hverify
  exact absurd hverify (by decide)

theorem confined_without_admin_key_guess : ∃ s s',
    Transition.run (step plainMint examplePlatform) {} exampleCalls = some s ∧
      Transition.run (step plainMint examplePlatform) s exampleGuess = some s' ∧
      Untouched s s' := by
  have hbefore : ((Transition.run (step plainMint examplePlatform) {} exampleCalls).map
      fun s => s.calls.all fun c => c.reply ≠ none) = some true := by
    decide +kernel
  have hafter : ((Transition.run (step plainMint examplePlatform) {} exampleCalls).bind
      fun s => (Transition.run (step plainMint examplePlatform) s exampleGuess).map
        (·.apiKeys)) = some oneKey := by
    decide +kernel
  obtain ⟨s, hs, hserved⟩ := Option.map_eq_some_iff.mp hbefore
  rw [hs, Option.bind_some] at hafter
  obtain ⟨s', hs', hkeys⟩ := Option.map_eq_some_iff.mp hafter
  refine ⟨s, s', hs, hs', confined_without_admin_key plainMint examplePlatform hs hs' ?_ ?_⟩
  · intro c hc hopen
    exact absurd hopen (of_decide_eq_true (List.all_eq_true.mp hserved c hc))
  · rintro a ha client rawKey endpoint hmove
    rw [hkeys]
    simp only [exampleGuess, exampleCall, List.mem_cons, List.mem_append, List.mem_replicate,
      List.not_mem_nil, or_false] at ha
    rcases ha with (rfl | ⟨-, rfl⟩) | rfl
    · cases hmove
      exact unprivileged_guess
    · cases hmove
    · cases hmove

end AccessState

end NeuroForge
