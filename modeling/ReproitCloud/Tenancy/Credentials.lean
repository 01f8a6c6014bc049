import ReproitCloud.Data.Time
import ReproitCloud.Lib.Eviction
import ReproitCloud.Lib.Processes
import ReproitCloud.Tenancy.Blobs

/-!
# Scoped credentials

A server that mints has Cloudflare make a credential for every tenant scope, which opens
only the keys under the scope and lives for two hours.  `credentials_for` keeps them in a
cache and mints anew when less than `scopedCredRefreshMarginSecs` of the life is left.
Time passes between its steps, and other calls step in between: the cache is not locked
during a mint.

A `Grant` is what Cloudflare has bound a credential to.  The server does not see it.  It
estimates the end of the life from the time before the call (`MintedCred.expiresAt`).

* `scoped_credentials`: in every run, a tenant operation has a credential for the prefix of
  its scope, a mint that fails leaves the cache alone, and the cache keeps its bound.  The
  URLs of a run all expire before their credentials where each is signed promptly, and
  exactly when each was signed within an hour of the grant.
* `url_outlives_credential`: after a mint that took longer, a URL is signed that does not.
-/

namespace ReproitCloud

open Lib

/-! ## Credentials -/

/-- `PRESIGN_EXPIRY_SECS`. -/
def presignExpirySecs : Int := 3600

/-- `SCOPED_CRED_TTL_SECS`. -/
def scopedCredTtlSecs : Int := 7200

/-- `SCOPED_CRED_REFRESH_MARGIN_SECS`. -/
def scopedCredRefreshMarginSecs : Int := presignExpirySecs + 300

/-- `SCOPED_CRED_CACHE_MAX`. -/
def scopedCredCacheMax : Nat := 8192

/-- What Cloudflare binds a credential to: prefixes of keys, or the whole bucket. -/
structure Grant where
  prefixes : Option (List String)
  issuedAt : Micros
  ttlSecs : Int
deriving DecidableEq, Repr

/-- When the credential of a grant expires. -/
def Grant.expiresAt (g : Grant) : Micros := g.issuedAt + g.ttlSecs * microsPerSecond

/-- `MintedCred`. -/
structure MintedCred where
  accessKeyId : String
  secretAccessKey : String
  sessionToken : String
  expiresAt : Micros
  /-- No field: what the credential opens, and for how long. -/
  grant : Grant
deriving DecidableEq, Repr

/-- `is_fresh`, at a time. -/
def MintedCred.isFresh (c : MintedCred) (now : Micros) : Bool :=
  now ≤ c.expiresAt && scopedCredRefreshMarginSecs < (c.expiresAt - now) / microsPerSecond

/-- What a server is given. -/
structure R2Env where
  bucket : String
  parentAccessKeyId : String
  /-- `R2_CREDS_API_TOKEN` is set. -/
  minting : Bool := true

/-- The body of a request for a credential. -/
structure MintRequest where
  bucket : String
  parentAccessKeyId : String
  permission : String
  ttlSeconds : Int
  prefixes : Option (List String)

/-- A scope without the slashes around it. -/
def credScope (scope : String) : String := String.ofList (trimMatches '/' scope.toList)

/-- The body that `mint` sends for a prefix.  The slash at the end binds it to a segment. -/
def mintRequest (E : R2Env) (scope : String) : MintRequest where
  bucket := E.bucket
  parentAccessKeyId := E.parentAccessKeyId
  permission := "object-read-write"
  ttlSeconds := scopedCredTtlSecs
  prefixes := if scope.toList.isEmpty then none else some [credScope scope ++ "/"]

/-- What is granted on a request. -/
def MintRequest.grantAt (r : MintRequest) (now : Micros) : Grant := ⟨r.prefixes, now, r.ttlSeconds⟩

/-- An answer of Cloudflare.  A body that is no JSON reads as null. -/
structure MintReply where
  isSuccess : Bool := true
  body : Json := .null

/-- Why a mint fails. -/
inductive MintError where
  | refused (errors : Option Json)
  | missing (name : String)

/-- A field of the result. -/
def MintReply.field (r : MintReply) (name : String) : Except MintError String :=
  match ((r.body.get "result").bind fun result => result.get name).bind Json.asStr with
  | some value => .ok value
  | none => .error (.missing name)

/-- The end of `mint`: the credential of an answer. -/
def MintReply.minted (r : MintReply) (mintedAt : Micros) (grant : Grant) :
    Except MintError MintedCred :=
  match r.isSuccess, r.body.get "success" with
  | true, some (.bool true) => do
    let accessKeyId ← r.field "accessKeyId"
    let secretAccessKey ← r.field "secretAccessKey"
    let sessionToken ← r.field "sessionToken"
    return ⟨accessKeyId, secretAccessKey, sessionToken,
      mintedAt + scopedCredTtlSecs * microsPerSecond, grant⟩
  | _, _ => .error (.refused (r.body.get "errors"))

/-! ## Operations on blobs -/

/-- What an operation does with the bucket. -/
inductive CredUse where
  /-- `url_for`. -/
  | presign (key : String)
  /-- A request of the server itself: `put`, `get`, `delete`. -/
  | request
deriving DecidableEq, Repr

/-- An operation for a tenant. -/
structure CredCall where
  scope : String
  use : CredUse
deriving DecidableEq, Repr

/-- What a bucket handle signs with: the credential of the process, or a minted one. -/
inductive R2Handle where
  | parent
  | minted (cred : MintedCred)
deriving DecidableEq, Repr

/-- A URL that was handed out. -/
structure PresignedUrl where
  scope : String
  key : String
  handle : R2Handle
  signedAt : Micros
deriving DecidableEq, Repr

/-- When a URL expires. -/
def PresignedUrl.expiresAt (u : PresignedUrl) : Micros :=
  u.signedAt + presignExpirySecs * microsPerSecond

/-- Where an operation is. -/
inductive CredOp where
  /-- `store_for`, with the lookup of `credentials_for`. -/
  | lookingUp (call : CredCall)
  /-- `mint`: `Instant::now`, the request, and the answer. -/
  | minting (call : CredCall) (scope : String)
  | requesting (call : CredCall) (scope : String) (mintedAt : Micros)
  | replying (call : CredCall) (scope : String) (mintedAt : Micros) (grant : Grant)
  /-- The insertion into the cache. -/
  | caching (call : CredCall) (scope : String) (cred : MintedCred)
  /-- The handle is built, with the time at which a cached credential was found fresh. -/
  | holding (call : CredCall) (handle : R2Handle) (checkedAt : Option Micros)
  | finished (ok : Bool)
deriving DecidableEq, Repr

/-- The clock, the cache, and the URLs that were handed out. -/
structure CredStore where
  now : Micros := 0
  cache : Table String MintedCred := .empty
  urls : List PresignedUrl := []

/-- The insertion of `credentials_for`.  Of several credentials that expire first, `pick` is
the one that the hash map has first. -/
def CredStore.cacheCred (s : CredStore) (scope : String) (cred : MintedCred) (pick : String) :
    Table String MintedCred :=
  (roomIn scopedCredCacheMax (fun c => !c.isFresh s.now) MintedCred.expiresAt s.cache scope
    pick).upsert scope cred fun _ => cred

/-- What the environment decides of a step. -/
structure CredChance where
  result : CallResult := .answered
  reply : MintReply := {}
  pick : String := ""
  /-- The handle is built, and the operation works. -/
  works : Bool := true

/-- The next step of an operation. -/
def credNext (E : R2Env) (s : CredStore) (chance : CredChance) :
    CredOp → Option (CredStore × Option CredOp)
  | .lookingUp call =>
    if E.minting then
      match (s.cache.get? (credScope call.scope)).filter fun c => c.isFresh s.now with
      | some cred => some (s, some (.holding call (.minted cred) (some s.now)))
      | none => some (s, some (.minting call (credScope call.scope)))
    else some (s, some (.holding call .parent none))
  | .minting call scope => some (s, some (.requesting call scope s.now))
  | .requesting call scope mintedAt =>
    if chance.result = .failed then some (s, some (.finished false))
    else some (s, some (.replying call scope mintedAt ((mintRequest E scope).grantAt s.now)))
  | .replying call scope mintedAt grant =>
    if chance.result = .answered then
      match chance.reply.minted mintedAt grant with
      | .ok cred => some (s, some (.caching call scope cred))
      | .error _ => some (s, some (.finished false))
    else some (s, some (.finished false))
  | .caching call scope cred =>
    some ({ s with cache := s.cacheCred scope cred chance.pick },
      some (.holding call (.minted cred) none))
  | .holding call handle _ =>
    if chance.works then
      match call.use with
      | .presign key =>
        some ({ s with urls := s.urls ++ [⟨call.scope, key, handle, s.now⟩] },
          some (.finished true))
      | .request => some (s, some (.finished true))
    else some (s, some (.finished false))
  | .finished _ => none

/-- A server on its bucket.  Others only let time pass. -/
def r2 (E : R2Env) : Program CredStore CredOp CredChance Micros where
  starts _ op := match op with
    | .lookingUp _ => true
    | _ => false
  next s _ := credNext E s
  write s _ now := if s.now ≤ now then some { s with now := now } else none

abbrev R2Server := Pool CredStore CredOp

abbrev R2Event := PoolEvent CredOp CredChance Micros

/-! ## What a credential is for -/

/-- The prefixes of a scope: its keys are those under it and a slash.  A server that hosts
itself has no scope, and its credential opens the bucket. -/
def scopePrefixes (scope : String) : Option (List String) :=
  if (credScope scope).toList.isEmpty then none else some [credScope scope ++ "/"]

theorem trimMatches_trimMatches (d : Char) (cs : List Char) :
    trimMatches d (trimMatches d cs) = trimMatches d cs := by
  let isD : Char → Bool := fun c => c = d
  have htrim : ∀ l, trimMatches d l = (l.dropWhile isD).rdropWhile isD := fun _ => rfl
  -- What is left at the front after the first trim stands in front after the second.
  have hfront : ((cs.dropWhile isD).rdropWhile isD).dropWhile isD =
      (cs.dropWhile isD).rdropWhile isD := by
    rw [List.dropWhile_eq_self_iff]
    intro hpos
    have hinside : (cs.dropWhile isD).rdropWhile isD <+: cs.dropWhile isD :=
      List.rdropWhile_prefix isD _
    rw [hinside.getElem hpos]
    exact List.dropWhile_get_zero_not isD cs (hpos.trans_le hinside.length_le)
  rw [htrim, htrim, hfront, List.rdropWhile_idempotent]

theorem credScope_credScope (scope : String) : credScope (credScope scope) = credScope scope := by
  rw [credScope, credScope, String.toList_ofList, trimMatches_trimMatches]

/-- The prefixes of a request for a scope without slashes around it. -/
theorem prefixes_mintRequest (E : R2Env) (scope : String) :
    (mintRequest E (credScope scope)).prefixes = scopePrefixes scope := by
  rw [mintRequest, scopePrefixes, credScope_credScope]

/-- Two scopes with the same prefixes are one. -/
theorem scopePrefixes_inj {a b : String} (h : scopePrefixes a = scopePrefixes b) :
    credScope a = credScope b := by
  unfold scopePrefixes at h
  split at h
  · rename_i ha
    split at h
    · rename_i hb
      rw [← String.toList_inj, List.isEmpty_iff.mp ha, List.isEmpty_iff.mp hb]
    · cases h
  · split at h
    · cases h
    · have hslash := congrArg String.toList (List.cons.inj (Option.some.inj h)).1
      rw [String.toList_append, String.toList_append] at hslash
      exact String.toList_inj.mp (List.append_cancel_right hslash)

/-! ## The outline -/

/-- A credential was minted for a scope without slashes around it, and Cloudflare does not let
it expire before the server expects that. -/
structure CredFor (E : R2Env) (scope : String) (cred : MintedCred) : Prop where
  prefixes : cred.grant.prefixes = (mintRequest E scope).prefixes
  ttl : cred.grant.ttlSecs = scopedCredTtlSecs
  early : cred.expiresAt ≤ cred.grant.expiresAt

/-- The cache and the URLs of a server that mints. -/
structure CredsKept (E : R2Env) (s : CredStore) : Prop where
  bound : s.cache.rows.length ≤ scopedCredCacheMax
  cached : ∀ scope cred, s.cache.get? scope = some cred → CredFor E scope cred
  urls : ∀ url ∈ s.urls, ∃ cred, url.handle = .minted cred ∧ CredFor E (credScope url.scope) cred

/-- What a step knows of its credential. -/
def CredOp.Knows (E : R2Env) (s : CredStore) : CredOp → Prop
  | minting call scope => scope = credScope call.scope
  | requesting call scope mintedAt => scope = credScope call.scope ∧ mintedAt ≤ s.now
  | replying call scope mintedAt grant => scope = credScope call.scope ∧
      grant.prefixes = (mintRequest E scope).prefixes ∧ grant.ttlSecs = scopedCredTtlSecs ∧
        mintedAt ≤ grant.issuedAt
  | caching call scope cred => scope = credScope call.scope ∧ CredFor E scope cred
  | holding call handle checkedAt => ∃ cred, handle = .minted cred ∧
      CredFor E (credScope call.scope) cred ∧ ∀ t, checkedAt = some t →
        t + (scopedCredRefreshMarginSecs + 1) * microsPerSecond ≤ cred.expiresAt
  | _ => True

section Steps

variable {E : R2Env} {s s' : CredStore} {chance : CredChance} {op : CredOp}

theorem CredOp.Knows.mono (h : op.Knows E s) (hnow : s.now ≤ s'.now) : op.Knows E s' := by
  cases op with
  | requesting => exact ⟨h.1, h.2.trans hnow⟩
  | _ => exact h

/-- What a fresh credential has left. -/
theorem le_of_isFresh {cred : MintedCred} {now : Micros} (h : cred.isFresh now = true) :
    now + (scopedCredRefreshMarginSecs + 1) * microsPerSecond ≤ cred.expiresAt := by
  obtain ⟨-, hleft⟩ := Bool.and_eq_true_iff.mp h
  have hsecs : scopedCredRefreshMarginSecs + 1 ≤ (cred.expiresAt - now) / microsPerSecond :=
    of_decide_eq_true hleft
  have hmicros := Int.mul_le_of_le_ediv (by decide) hsecs
  exact Int.add_le_of_le_sub_left hmicros

/-- A credential that an answer has is the one of the grant. -/
theorem minted_eq_ok {reply : MintReply} {mintedAt : Micros} {grant : Grant} {cred : MintedCred}
    (h : reply.minted mintedAt grant = .ok cred) :
    cred.grant = grant ∧ cred.expiresAt = mintedAt + scopedCredTtlSecs * microsPerSecond := by
  unfold MintReply.minted at h
  split at h
  · cases haccess : reply.field "accessKeyId" with
    | error e => simp [haccess, bind, Except.bind] at h
    | ok accessKeyId =>
      cases hsecret : reply.field "secretAccessKey" with
      | error e => simp [haccess, hsecret, bind, Except.bind] at h
      | ok secretAccessKey =>
        cases htoken : reply.field "sessionToken" with
        | error e => simp [haccess, hsecret, htoken, bind, Except.bind] at h
        | ok sessionToken =>
          simp only [haccess, hsecret, htoken, bind, Except.bind, pure, Except.pure,
            Except.ok.injEq] at h
          subst h
          exact ⟨rfl, rfl⟩
  · cases h

theorem credFor_of_minted {reply : MintReply} {scope : String} {mintedAt : Micros} {grant : Grant}
    {cred : MintedCred} (h : reply.minted mintedAt grant = .ok cred)
    (hprefixes : grant.prefixes = (mintRequest E scope).prefixes)
    (httl : grant.ttlSecs = scopedCredTtlSecs) (hissued : mintedAt ≤ grant.issuedAt) :
    CredFor E scope cred := by
  obtain ⟨rfl, hexpires⟩ := minted_eq_ok h
  refine ⟨hprefixes, httl, ?_⟩
  rw [hexpires, Grant.expiresAt, httl]
  exact Int.add_le_add_right hissued _

theorem CredsKept.insert (h : CredsKept E s) {scope pick : String} {cred : MintedCred}
    (hcred : CredFor E scope cred) : CredsKept E { s with cache := s.cacheCred scope cred pick } where
  bound := length_upsert_roomIn (by decide) h.bound _ _
  cached k c hc := by
    change (s.cacheCred scope cred pick).get? k = some c at hc
    rw [CredStore.cacheCred, Table.get?_upsert] at hc
    split at hc
    · rename_i hk
      have hsame : c = cred := by
        cases hold : (roomIn scopedCredCacheMax (fun c => !c.isFresh s.now) MintedCred.expiresAt
          s.cache scope pick).get? scope <;> simp_all
      rw [hk, hsame]
      exact hcred
    · exact h.cached k c (get?_of_roomIn hc)
  urls := h.urls

/-- A step keeps the cache and the URLs, and knows what it has to. -/
theorem credNext_keeps (hmint : E.minting = true) {store : CredStore} {next : Option CredOp}
    (h : CredsKept E s) (hop : op.Knows E s) (hnext : credNext E s chance op = some (store, next)) :
    CredsKept E store ∧ store.now = s.now ∧ ∀ op', next = some op' → op'.Knows E store := by
  cases op with
  | lookingUp call =>
    rw [credNext, if_pos hmint] at hnext
    split at hnext
    · rename_i cred hfound
      cases hnext
      obtain ⟨hget, hfresh⟩ := Option.filter_eq_some_iff.mp hfound
      refine ⟨h, rfl, fun op' heq => ?_⟩
      cases heq
      refine ⟨cred, rfl, h.cached _ _ hget, fun t ht => ?_⟩
      cases ht
      exact le_of_isFresh hfresh
    · cases hnext
      exact ⟨h, rfl, fun op' heq => by cases heq; rfl⟩
  | minting call scope =>
    cases hnext
    exact ⟨h, rfl, fun op' heq => by cases heq; exact ⟨hop, le_refl _⟩⟩
  | requesting call scope mintedAt =>
    rw [credNext] at hnext
    split at hnext
    · cases hnext
      exact ⟨h, rfl, fun op' heq => by cases heq; trivial⟩
    · cases hnext
      exact ⟨h, rfl, fun op' heq => by cases heq; exact ⟨hop.1, rfl, rfl, hop.2⟩⟩
  | replying call scope mintedAt grant =>
    rw [credNext] at hnext
    split at hnext
    · split at hnext
      · rename_i cred hcred
        cases hnext
        refine ⟨h, rfl, fun op' heq => ?_⟩
        cases heq
        exact ⟨hop.1, credFor_of_minted hcred hop.2.1 hop.2.2.1 hop.2.2.2⟩
      · cases hnext
        exact ⟨h, rfl, fun op' heq => by cases heq; trivial⟩
    · cases hnext
      exact ⟨h, rfl, fun op' heq => by cases heq; trivial⟩
  | caching call scope cred =>
    cases hnext
    refine ⟨h.insert hop.2, rfl, fun op' heq => ?_⟩
    cases heq
    exact ⟨cred, rfl, hop.1 ▸ hop.2, fun t ht => by cases ht⟩
  | holding call handle checkedAt =>
    obtain ⟨cred, rfl, hcred, -⟩ := hop
    rw [credNext] at hnext
    split at hnext
    · split at hnext
      · cases hnext
        refine ⟨⟨h.bound, h.cached, fun url hurl => ?_⟩, rfl, fun op' heq => by cases heq; trivial⟩
        rcases List.mem_append.mp hurl with hurl | hurl
        · exact h.urls url hurl
        · rw [List.mem_singleton.mp hurl]
          exact ⟨cred, rfl, hcred⟩
      · cases hnext
        exact ⟨h, rfl, fun op' heq => by cases heq; trivial⟩
    · cases hnext
      exact ⟨h, rfl, fun op' heq => by cases heq; trivial⟩
  | finished ok => cases hnext

theorem keepsOutline_creds (hmint : E.minting = true) :
    KeepsOutline (r2 E) (fun _ _ _ => True) (CredsKept E) (fun s op => op.Knows E s)
      fun _ _ => True where
  start s s' op _ _ hstarts := by
    refine ⟨?_, fun _ _ => trivial⟩
    cases op with
    | lookingUp call => trivial
    | _ => cases hstarts
  advance s s' i chance op store next h _ hop hnext := by
    obtain ⟨hkept, hnow, hknows⟩ :=
      credNext_keeps hmint h.store (h.each op (List.mem_of_getElem? hop)) hnext
    refine ⟨hkept, fun o ho => ?_, fun op' heq => ⟨hknows op' heq, fun _ _ => trivial⟩⟩
    exact (h.each o (List.mem_of_mem_eraseIdx ho)).mono hnow.ge
  commit s s' now store h _ hwrite := by
    obtain ⟨hnow, heq⟩ := Option.ite_none_right_eq_some.mp hwrite
    cases heq
    exact ⟨⟨h.store.bound, h.store.cached, h.store.urls⟩, fun o ho => (h.each o ho).mono hnow⟩

end Steps

/-! ## URLs -/

/-- The URL expires no later than the credential that signed it. -/
def PresignedUrl.Outlived (u : PresignedUrl) : Prop :=
  ∀ cred, u.handle = .minted cred → u.expiresAt ≤ cred.grant.expiresAt

/-- No more of the life of a credential has passed than a URL leaves of it, which is an hour. -/
def MintedCred.InTime (c : MintedCred) (now : Micros) : Prop :=
  now ≤ c.grant.issuedAt + (scopedCredTtlSecs - presignExpirySecs) * microsPerSecond

/-- The start of the call that minted a credential, which counts on the whole life. -/
def MintedCred.mintedAt (c : MintedCred) : Micros :=
  c.expiresAt - scopedCredTtlSecs * microsPerSecond

/-- A credential is used within 301 seconds of the look at the cached one, or within an hour
of the call that minted it. -/
def MintedCred.UsedPromptly (c : MintedCred) (checkedAt : Option Micros) (now : Micros) : Prop :=
  (∃ checked, checkedAt = some checked ∧ now ≤ checked + 301 * microsPerSecond) ∨
    now ≤ c.mintedAt + (scopedCredTtlSecs - presignExpirySecs) * microsPerSecond

/-- A URL is signed with a credential that is used promptly. -/
def SignsPromptly (s : R2Server) (e : R2Event) (_ : R2Server) : Prop :=
  match e with
  | .advance i chance => chance.works = true → ∀ call cred checkedAt key,
      s.inFlight[i]? = some (.holding call (.minted cred) checkedAt) →
        call.use = .presign key → cred.UsedPromptly checkedAt s.store.now
  | _ => True

/-- A URL is signed within an hour of the grant. -/
def SignsInTime (s : R2Server) (e : R2Event) (_ : R2Server) : Prop :=
  match e with
  | .advance i chance => chance.works = true → ∀ call cred checkedAt key,
      s.inFlight[i]? = some (.holding call (.minted cred) checkedAt) →
        call.use = .presign key → cred.InTime s.store.now
  | _ => True

section Urls

variable {E : R2Env} {s s' : CredStore} {chance : CredChance} {op : CredOp}

theorem outlived_iff (scope key : String) {cred : MintedCred} {now : Micros}
    (httl : cred.grant.ttlSecs = scopedCredTtlSecs) :
    (⟨scope, key, .minted cred, now⟩ : PresignedUrl).Outlived ↔ cred.InTime now := by
  have hone : (⟨scope, key, .minted cred, now⟩ : PresignedUrl).Outlived ↔
      now + presignExpirySecs * microsPerSecond ≤ cred.grant.expiresAt := by
    constructor
    · exact fun h => h cred rfl
    · rintro h cred' hcred'
      cases hcred'
      exact h
  rw [hone, MintedCred.InTime, Grant.expiresAt, httl, Int.sub_mul, ← Int.add_sub_assoc]
  exact le_sub_iff_add_le.symm

/-- A step hands out a URL only where an operation signs one. -/
theorem urls_credNext {next : Option CredOp} (h : credNext E s chance op = some (s', next)) :
    (s'.urls = s.urls ∧ ∀ call handle checkedAt key, op = .holding call handle checkedAt →
      chance.works = true → call.use ≠ .presign key) ∨
    ∃ call handle checkedAt key, op = .holding call handle checkedAt ∧ chance.works = true ∧
      call.use = .presign key ∧ s'.urls = s.urls ++ [⟨call.scope, key, handle, s.now⟩] := by
  cases op with
  | holding call handle checkedAt =>
    rw [credNext] at h
    split at h
    · rename_i hworks
      split at h
      · rename_i key hkey
        cases h
        exact Or.inr ⟨call, handle, checkedAt, key, rfl, hworks, hkey, rfl⟩
      · rename_i hrequest
        cases h
        refine Or.inl ⟨rfl, fun call' handle' checkedAt' key heq _ hkey => ?_⟩
        cases heq
        rw [hrequest] at hkey
        cases hkey
    · rename_i hfails
      cases h
      exact Or.inl ⟨rfl, fun _ _ _ _ _ hworks => absurd hworks hfails⟩
  | lookingUp call =>
    rw [credNext] at h
    refine Or.inl ⟨?_, fun _ _ _ _ heq => by cases heq⟩
    split at h
    · split at h <;> cases h <;> rfl
    · cases h
      rfl
  | requesting call scope mintedAt =>
    rw [credNext] at h
    refine Or.inl ⟨?_, fun _ _ _ _ heq => by cases heq⟩
    split at h <;> cases h <;> rfl
  | replying call scope mintedAt grant =>
    rw [credNext] at h
    refine Or.inl ⟨?_, fun _ _ _ _ heq => by cases heq⟩
    split at h
    · split at h <;> cases h <;> rfl
    · cases h
      rfl
  | minting | caching =>
    cases h
    exact Or.inl ⟨rfl, fun _ _ _ _ heq => by cases heq⟩
  | finished ok => cases h

/-- The outline of a server that mints. -/
abbrev CredsOutline (E : R2Env) (s : R2Server) : Prop :=
  Outline (CredsKept E) (fun s op => op.Knows E s) (fun _ _ => True) s

/-- What is used promptly is used in time: the margin of the cache is 300 seconds longer than
the life of a URL, and the grant is not before the call. -/
theorem inTime_of_usedPromptly {s : R2Server} (h : CredsOutline E s) {call : CredCall}
    {cred : MintedCred} {checkedAt : Option Micros}
    (hop : .holding call (.minted cred) checkedAt ∈ s.inFlight)
    (hprompt : cred.UsedPromptly checkedAt s.store.now) : cred.InTime s.store.now := by
  obtain ⟨cred', heq, hcred, hfresh⟩ := h.each _ hop
  cases heq
  have hexpected : s.store.now + presignExpirySecs * microsPerSecond ≤ cred.expiresAt := by
    rcases hprompt with ⟨checked, rfl, hsoon⟩ | hsoon
    · refine le_trans ?_ (hfresh checked rfl)
      have hsecs : (scopedCredRefreshMarginSecs + 1) * microsPerSecond =
          301 * microsPerSecond + presignExpirySecs * microsPerSecond := by decide
      rw [hsecs, ← Int.add_assoc]
      exact Int.add_le_add_right hsoon _
    · rw [MintedCred.mintedAt, Int.sub_mul, sub_add_sub_cancel] at hsoon
      exact Int.add_le_of_le_sub_right hsoon
  have hgrant := hexpected.trans hcred.early
  rw [Grant.expiresAt, hcred.ttl] at hgrant
  rw [MintedCred.InTime, Int.sub_mul, ← Int.add_sub_assoc]
  exact Int.le_sub_right_of_add_le hgrant

theorem signsInTime_of_promptly {s s' : R2Server} {e : R2Event} (h : CredsOutline E s)
    (hprompt : SignsPromptly s e s') : SignsInTime s e s' := by
  cases e with
  | advance i chance =>
    intro hworks call cred checkedAt key hop hkey
    exact inTime_of_usedPromptly h (List.mem_of_getElem? hop)
      (hprompt hworks call cred checkedAt key hop hkey)
  | start op | abandon i | commit now => trivial

/-- After a step, all URLs expire before their credentials exactly when they did before it and
the step signs in time. -/
theorem outlived_step {s s' : R2Server} {e : R2Event} (h : CredsOutline E s)
    (hstep : (r2 E).step s e = some s') :
    (∀ url ∈ s'.store.urls, url.Outlived) ↔
      (∀ url ∈ s.store.urls, url.Outlived) ∧ SignsInTime s e s' := by
  cases Program.effect_of_step hstep with
  | start | abandon => exact (and_iff_left trivial).symm
  | @commit now store hwrite =>
    obtain ⟨-, heq⟩ := Option.ite_none_right_eq_some.mp hwrite
    cases heq
    exact (and_iff_left trivial).symm
  | @advance i chance op store next hop hnext =>
    rcases urls_credNext hnext with ⟨hurls, hnone⟩ | ⟨call, handle, checkedAt, key, rfl, hworks,
      hkey, hurls⟩
    · have hguard : ∀ s', SignsInTime s (.advance i chance) s' := by
        intro s' hworks call cred checkedAt key hholding hkey
        rw [hop, Option.some.injEq] at hholding
        exact absurd hkey (hnone call _ checkedAt key hholding hworks)
      dsimp only
      rw [hurls]
      exact (and_iff_left (hguard _)).symm
    · obtain ⟨cred, rfl, hcred, -⟩ := h.each _ (List.mem_of_getElem? hop)
      have hguard : ∀ s', SignsInTime s (.advance i chance) s' ↔ cred.InTime s.store.now := by
        intro s'
        constructor
        · exact fun hguard => hguard hworks call cred checkedAt key hop hkey
        · intro htime _ call' cred' checkedAt' key' hholding _
          rw [hop, Option.some.injEq] at hholding
          cases hholding
          exact htime
      dsimp only
      rw [hurls, hguard, ← outlived_iff call.scope key hcred.ttl]
      simp only [List.mem_append, List.mem_singleton, or_imp, forall_and, forall_eq]

theorem outlived_run (hmint : E.minting = true) {s t : R2Server} {es : List R2Event}
    (hrun : Run (stepOf (r2 E).step) s es t) (h : CredsOutline E s) :
    (∀ url ∈ t.store.urls, url.Outlived) ↔
      (∀ url ∈ s.store.urls, url.Outlived) ∧
        Run (Guarded (stepOf (r2 E).step) SignsInTime) s es t := by
  induction hrun with
  | nil s => exact (and_iff_left (Run.nil s)).symm
  | @cons s u t e es hstep _ ih =>
    rw [ih (h.step (keepsOutline_creds hmint) hstep trivial), outlived_step h hstep, and_assoc]
    refine and_congr_right fun _ => ⟨fun ⟨hok, hrest⟩ => .cons ⟨hstep, hok⟩ hrest, fun hall => ?_⟩
    cases hall with
    | cons hfirst hrest =>
      have hsame := hfirst.1
      rw [stepOf, hstep, Option.some.injEq] at hsame
      subst hsame
      exact ⟨hfirst.2, hrest⟩

end Urls

/-! ## Runs -/

/-- A handle of a tenant operation has a credential for the prefix of its scope, and for no
other scope. -/
def ScopedHandle (scope : String) (handle : R2Handle) : Prop :=
  ∃ cred, handle = .minted cred ∧ cred.grant.prefixes = scopePrefixes scope ∧
    ∀ other, cred.grant.prefixes = scopePrefixes other → credScope other = credScope scope

/-- The mint of an operation fails with a step. -/
def CredOp.MintFails (chance : CredChance) : CredOp → Prop
  | requesting .. => chance.result = .failed
  | replying _ _ mintedAt grant =>
    chance.result ≠ .answered ∨ ∃ error, chance.reply.minted mintedAt grant = .error error
  | _ => False

theorem credNext_of_mintFails {E : R2Env} {s : CredStore} {chance : CredChance} {op : CredOp}
    (h : op.MintFails chance) : credNext E s chance op = some (s, some (.finished false)) := by
  cases op with
  | requesting call scope mintedAt => exact if_pos h
  | replying call scope mintedAt grant =>
    rw [credNext]
    rcases h with hlost | ⟨error, herror⟩
    · exact if_neg hlost
    · rw [herror]
      exact ite_self _
  | _ => cases h

theorem scopedHandle_of_credFor {E : R2Env} {scope : String} {cred : MintedCred}
    (h : CredFor E (credScope scope) cred) : ScopedHandle scope (.minted cred) := by
  have hprefixes : cred.grant.prefixes = scopePrefixes scope :=
    h.prefixes.trans (prefixes_mintRequest E scope)
  exact ⟨cred, rfl, hprefixes, fun other hother => scopePrefixes_inj (hother.symm.trans hprefixes)⟩

/-- In every run of a server that mints, operations and URLs have credentials for the prefix of
their scope, a mint that fails ends the operation and leaves the cache as it is, and the cache
keeps its bound.  All URLs expire before their credentials where each is signed within 301
seconds of the look at the cached credential or within an hour of the mint, and exactly when
each is signed within an hour of the grant. -/
theorem scoped_credentials {E : R2Env} (hmint : E.minting = true) {s t : R2Server}
    {es : List R2Event} (hidle : s.inFlight = []) (hcache : s.store.cache = .empty)
    (hurls : s.store.urls = []) (hrun : Run (stepOf (r2 E).step) s es t) :
    (∀ call handle checkedAt, .holding call handle checkedAt ∈ t.inFlight →
      ScopedHandle call.scope handle) ∧
    (∀ url ∈ t.store.urls, ScopedHandle url.scope url.handle) ∧
    (∀ op ∈ t.inFlight, ∀ chance, op.MintFails chance →
      credNext E t.store chance op = some (t.store, some (.finished false))) ∧
    t.store.cache.rows.length ≤ scopedCredCacheMax ∧
    (Run (Guarded (stepOf (r2 E).step) SignsPromptly) s es t →
      ∀ url ∈ t.store.urls, url.Outlived) ∧
    ((∀ url ∈ t.store.urls, url.Outlived) ↔
      Run (Guarded (stepOf (r2 E).step) SignsInTime) s es t) ∧
    ∀ call cred checkedAt, .holding call (.minted cred) checkedAt ∈ t.inFlight →
      cred.UsedPromptly checkedAt t.store.now → cred.InTime t.store.now := by
  have hstart : CredsOutline E s := by
    refine outline_of_idle ⟨?_, ?_, ?_⟩ hidle
    · rw [hcache]
      exact Nat.zero_le _
    · intro scope cred hcred
      rw [hcache] at hcred
      cases hcred
    · intro url hurl
      rw [hurls] at hurl
      cases hurl
  have hguarded : Run (Guarded (stepOf (r2 E).step) fun _ _ _ => True) s es t :=
    hrun.mono fun _ _ _ hstep => ⟨hstep, trivial⟩
  have houtline : CredsOutline E t := Outline.run (keepsOutline_creds hmint) hguarded hstart
  have houtlived : (∀ url ∈ t.store.urls, url.Outlived) ↔
      Run (Guarded (stepOf (r2 E).step) SignsInTime) s es t := by
    rw [outlived_run hmint hrun hstart, hurls]
    exact and_iff_right fun url hurl => by cases hurl
  refine ⟨?_, ?_, fun op _ chance => credNext_of_mintFails, houtline.store.bound, fun hprompt => ?_,
    houtlived, fun call cred checkedAt => inTime_of_usedPromptly houtline⟩
  · intro call handle checkedAt hop
    obtain ⟨cred, rfl, hcred, -⟩ := houtline.each _ hop
    exact scopedHandle_of_credFor hcred
  · intro url hurl
    obtain ⟨cred, hhandle, hcred⟩ := houtline.store.urls url hurl
    rw [hhandle]
    exact scopedHandle_of_credFor hcred
  · exact houtlived.2 (hprompt.guarded_of_invariant (CredsOutline E)
      (fun _ _ _ h hstep _ => h.step (keepsOutline_creds hmint) hstep trivial)
      (fun _ _ _ h _ hsigns => signsInTime_of_promptly h hsigns) hstart)

/-- The guard, computed. -/
def signsPromptly (s : R2Server) : R2Event → Bool
  | .advance i _ => (s.inFlight[i]?).all fun op =>
    match op with
    | .holding _ (.minted cred) checkedAt =>
      (checkedAt.any fun checked => s.store.now ≤ checked + 301 * microsPerSecond) ||
        s.store.now ≤ cred.mintedAt + (scopedCredTtlSecs - presignExpirySecs) * microsPerSecond
    | _ => true
  | _ => true

theorem signsPromptly_sound (s : R2Server) (e : R2Event) (s' : R2Server)
    (h : signsPromptly s e = true) : SignsPromptly s e s' := by
  cases e with
  | advance i chance =>
    intro _ call cred checkedAt key hop _
    simp only [signsPromptly, hop, Option.all_some, Bool.or_eq_true, decide_eq_true_eq] at h
    refine h.imp (fun hchecked => ?_) id
    obtain ⟨checked, hsome, hsoon⟩ := (Option.any_eq_true _ _).mp hchecked
    exact ⟨checked, hsome, of_decide_eq_true hsoon⟩
  | start op | abandon i | commit now => trivial

/-! ## A slow mint -/

/-- A server that mints. -/
def mintingServer : R2Env := { bucket := "blobs", parentAccessKeyId := "parent" }

/-- An answer with a credential. -/
def grantedReply : MintReply where
  body := .object [("success", .bool true), ("result", .object [("accessKeyId", .string "minted"),
    ("secretAccessKey", .string "secret"), ("sessionToken", .string "token")])]

/-- A URL for an object of a tenant: the mint, a time, and the signature. -/
def signAfter (wait : Micros) : List R2Event :=
  [.start (.lookingUp ⟨"t/7", .presign "t/7/a.png"⟩), .advance 0 {}, .advance 0 {}, .advance 0 {},
    .advance 0 { reply := grantedReply }, .commit wait, .advance 0 {}, .advance 0 {}]

/-- Signed within an hour of the mint, the URL expires before its credential. -/
theorem scoped_credentials_within_an_hour :
    ∃ t, Run (Guarded (stepOf (r2 mintingServer).step) SignsPromptly) { store := {} }
        (signAfter (3600 * microsPerSecond)) t ∧ t.store.urls.length = 1 ∧
      ∀ url ∈ t.store.urls, ScopedHandle url.scope url.handle ∧ url.Outlived := by
  have hsome : ((runOf (checked (r2 mintingServer).step signsPromptly) { store := {} }
      (signAfter (3600 * microsPerSecond))).any fun t => t.store.urls.length = 1) = true := by
    decide
  obtain ⟨t, ht, hlen⟩ := (Option.any_eq_true _ _).mp hsome
  have hrun : Run (Guarded (stepOf (r2 mintingServer).step) SignsPromptly) { store := {} }
      (signAfter (3600 * microsPerSecond)) t := Run.of_runOf_checked signsPromptly_sound ht
  obtain ⟨-, hscoped, -, -, houtlived, -⟩ := scoped_credentials rfl rfl rfl rfl hrun.of_guarded
  exact ⟨t, hrun, of_decide_eq_true hlen,
    fun url hurl => ⟨hscoped url hurl, houtlived hrun url hurl⟩⟩

/-- Signed an hour and a second after the grant, because the answer or the lock took so long,
the URL expires after its credential. -/
theorem url_outlives_credential :
    ¬∀ (E : R2Env) (s t : R2Server) (es : List R2Event), E.minting = true → s.inFlight = [] →
      s.store.cache = .empty → s.store.urls = [] → Run (stepOf (r2 E).step) s es t →
      ∀ url ∈ t.store.urls, url.Outlived := by
  intro hall
  have hsome : ((runOf (r2 mintingServer).step { store := {} }
      (signAfter (3601 * microsPerSecond))).any fun t => t.store.urls.any fun url =>
        match url.handle with
        | .minted cred => cred.grant.expiresAt < url.expiresAt
        | .parent => false) = true := by decide
  obtain ⟨t, ht, hlate⟩ := (Option.any_eq_true _ _).mp hsome
  obtain ⟨url, hurl, hlate⟩ := List.any_eq_true.mp hlate
  have houtlived := hall mintingServer _ t _ rfl rfl rfl rfl (Run.of_runOf ht) url hurl
  cases hhandle : url.handle with
  | parent =>
    rw [hhandle] at hlate
    cases hlate
  | minted cred =>
    rw [hhandle] at hlate
    exact absurd (houtlived cred hhandle) (not_le.mpr (of_decide_eq_true hlate))

end ReproitCloud
