import Lazyd.Remote.Auth
import Mathlib.Data.Set.Function

/-!
# Tokens and the challenges they were issued for

The reads of a backend share the tokens that have been issued, and find them again under the
`cache_key` of a challenge: its realm, service and scope, joined by bars. The key has lost what the
challenge was. An absent service and an empty one have the same key, though the token service is
asked for different tokens; so have two challenges with a bar in a different place.

A token that a call goes on with has been issued for the challenge of the call, in every run with
challenges of a given set, exactly when no two challenges of the set have the same key.

## Main definitions

* `Oci.issuance` : the tokens that are issued in a step, with the challenge of the request.
* `Oci.HandsOut` : a step in which a call gets a token for a challenge.
* `Oci.NeverShared` : every token that a call gets for a challenge has been issued for it.
* `Oci.CacheIssued`, `Oci.CallIssued` : the invariant.

## Main results

* `Oci.issued_step` : the step lemma.
* `Oci.neverShared_iff` : the sets of challenges without shared tokens.
* `Oci.cacheKey_injOn` : challenges with different keys.
* `Oci.token_shared` : an absent service and an empty one.

Source: `src/remote/oci.rs`, lines 55–71 and 269–331.
-/

namespace Lazyd

namespace Oci

/-! ### What is issued and what is handed out -/

/-- The token that is issued in a step, with the challenge that it has been requested for. -/
def issuance : GetState → Event → List (BearerChallenge × String)
  | .fetching _ _ challenge, .token answer =>
    match fetchBearerToken answer with
    | .ok token => [(challenge, token)]
    | .error _ => []
  | _, _ => []

/-- A step in which a call gets `token` for `challenge`: `cached_token` returns it while the last
challenge is `challenge`, or `token_for_challenge` returns it, from the cache or after a request. -/
inductive HandsOut (challenge : BearerChallenge) (token : String) :
    RegistryAuthState → GetState → GetState → Prop
  | cached {s : RegistryAuthState} (args : GetArgs) (hlast : s.lastChallenge = some challenge) :
      HandsOut challenge token s (.called args) (.sending args (some token))
  | found {s : RegistryAuthState} (args : GetArgs) (first : Option String) (fetched : Bool) :
      HandsOut challenge token s (.challenged args first challenge)
        (.retrying args first token fetched)
  | stored {s : RegistryAuthState} (args : GetArgs) (first : Option String) (issued : String)
      (fetched : Bool) :
      HandsOut challenge token s (.storing args first challenge issued)
        (.retrying args first token fetched)

/-- A call that has not made a step yet: of `registry_get`, of `cached_token` or of
`token_for_challenge` with any challenge. -/
def GetState.Fresh : GetState → Prop
  | .idle | .called _ | .challenged _ _ _ => True
  | _ => False

/-- `token_for_challenge` is called with challenges of `S` only. -/
def CalledWith (S : Set BearerChallenge) : GetState → Event → Prop
  | .challenged _ _ challenge, .check _ => challenge ∈ S
  | _, _ => True

/-- In every run of any number of calls with challenges of `S`, every token that a call gets for a
challenge has been issued before in the run, to a request for exactly that challenge. -/
def NeverShared (S : Set BearerChallenge) : Prop :=
  ∀ (c₀ c c' : TaskSystem.Config RegistryAuthState GetState ℕ) (ls : List (ℕ × Event)) (t : ℕ)
    (e : Event) (challenge : BearerChallenge) (token : String),
    c₀.shared = .default → (∀ t, (c₀.task t).Fresh) → registryGet.Run (CalledWith S) c₀ ls c →
    CalledWith S (c.task t) e → registryGet.fire c t e = some c' →
    HandsOut challenge token c.shared (c.task t) (c'.task t) →
    (challenge, token) ∈ registryGet.observe issuance c₀ ls

/-! ### The invariant -/

section Invariant

variable {S : Set BearerChallenge} {P : BearerChallenge × String → Prop}
  {s s' : RegistryAuthState} {l l' : GetState} {e : Event}

/-- Every cached token has been issued for a challenge with the key that it is found under. -/
structure CacheIssued (S : Set BearerChallenge) (P : BearerChallenge × String → Prop)
    (s : RegistryAuthState) : Prop where
  token : ∀ key token, s.tokens key = some token →
    ∃ challenge ∈ S, challenge.cacheKey = key ∧ P (challenge, token)
  last : ∀ challenge, s.lastChallenge = some challenge → challenge ∈ S

/-- The token that a call is about to store has been issued for its challenge. -/
def CallIssued (S : Set BearerChallenge) (P : BearerChallenge × String → Prop) : GetState → Prop
  | .fetching _ _ challenge => challenge ∈ S
  | .storing _ _ challenge token => challenge ∈ S ∧ P (challenge, token)
  | _ => True

theorem cacheIssued_default : CacheIssued S P .default where
  token _ _ h := absurd h (Option.some_ne_none _).symm
  last _ h := absurd h (Option.some_ne_none _).symm

theorem GetState.Fresh.callIssued (h : l.Fresh) : CallIssued S P l := by
  cases l with
  | fetching | storing => exact h.elim
  | _ => trivial

theorem CacheIssued.store (hs : CacheIssued S P s) {challenge : BearerChallenge} {token : String}
    (hS : challenge ∈ S) (hP : P (challenge, token)) :
    CacheIssued S P { tokens := Function.update s.tokens challenge.cacheKey (some token)
                      lastChallenge := some challenge } where
  token key token' h := by
    by_cases hkey : key = challenge.cacheKey
    · subst hkey
      simp only [Function.update_self, Option.some.injEq] at h
      exact ⟨challenge, hS, rfl, h ▸ hP⟩
    · simp only [Function.update_of_ne hkey] at h
      exact hs.token key token' h
  last challenge' h := Option.some.inj h ▸ hS

/-- **The step lemma.** If every token issued is issued as `P` says, a step keeps the tokens in the
cache and in the calls issued. -/
theorem issued_step (hs : CacheIssued S P s) (hl : CallIssued S P l) (hcalled : CalledWith S l e)
    (hissue : ∀ x ∈ issuance l e, P x) (h : step s l e = some (s', l')) :
    CacheIssued S P s' ∧ CallIssued S P l' := by
  cases Effect.of_step h with
  | call | lookup | retried | drop => exact ⟨hs, trivial⟩
  | response args first valid res =>
    refine ⟨hs, ?_⟩
    unfold received
    split
    · trivial
    · split_ifs
      · trivial
      · split <;> trivial
  | check args first challenge found =>
    refine ⟨⟨hs.token, fun challenge' h => Option.some.inj h ▸ hcalled⟩, ?_⟩
    cases found with
    | none => exact hcalled
    | some token => trivial
  | token args first challenge answer =>
    refine ⟨hs, ?_⟩
    rw [issuance] at hissue
    cases hanswer : fetchBearerToken answer with
    | error err => trivial
    | ok token =>
      rw [hanswer] at hissue
      exact ⟨hl, hissue _ List.mem_cons_self⟩
  | store args first challenge token => exact ⟨hs.store hl.1 hl.2, trivial⟩

/-- With different keys, every token that is handed out has been issued for the challenge. -/
theorem HandsOut.issued (hkeys : S.InjOn BearerChallenge.cacheKey) {challenge : BearerChallenge}
    {token : String} (hs : CacheIssued S P s) (hl : CallIssued S P l) (hcalled : CalledWith S l e)
    (hstep : step s l e = some (s', l')) (h : HandsOut challenge token s l l') :
    P (challenge, token) := by
  -- what is found under the key of a challenge of `S`
  have hfound (hS : challenge ∈ S) (htoken : s.tokens challenge.cacheKey = some token) :
      P (challenge, token) := by
    obtain ⟨challenge', hS', hkey, hP⟩ := hs.token _ _ htoken
    exact hkeys hS' hS hkey ▸ hP
  cases h with
  | cached args hlast =>
    generalize hl' : GetState.sending args (some token) = l' at hstep
    cases Effect.of_step hstep with
    | lookup =>
      have hcached := (GetState.sending.inj hl').2.symm
      rw [RegistryAuthState.cachedToken, hlast] at hcached
      exact hfound (hs.last _ hlast) hcached
    | drop => exact absurd hl' (by simp)
  | found args first fetched =>
    generalize hl' : GetState.retrying args first token fetched = l' at hstep
    cases Effect.of_step hstep with
    | check _ _ _ found htoken =>
      cases found with
      | none => exact absurd hl' (by simp [checked])
      | some token' =>
        obtain ⟨-, -, rfl, -⟩ := GetState.retrying.inj hl'
        exact hfound hcalled htoken
    | drop => exact absurd hl' (by simp)
  | stored args first issued fetched =>
    cases Effect.of_step hstep with
    | store => exact hl.2

end Invariant

/-! ### Two challenges with one key -/

/-- A call of `token_for_challenge` with `challenge`, and others with `challenge'`. -/
def pairStart (challenge challenge' : BearerChallenge) :
    TaskSystem.Config RegistryAuthState GetState ℕ where
  shared := .default
  task t := .challenged smallArgs none (if t = 0 then challenge else challenge')

/-- The steps of a call that gets the token `t` from the token service. -/
def fetchSteps : List Event :=
  [.check none, .token (.ok ⟨200, "200 OK", .ok ⟨some "t", none⟩⟩), .store]

/-- The state after the token `t` has been fetched for a challenge. -/
def tokensOf (challenge : BearerChallenge) : RegistryAuthState where
  tokens := Function.update (fun _ => none) challenge.cacheKey (some "t")
  lastChallenge := some challenge

section Pair

variable {S : Set BearerChallenge} {challenge challenge' : BearerChallenge}

theorem CalledWith.mono {S' : Set BearerChallenge} (hS : S ⊆ S') {l : GetState} {e : Event}
    (h : CalledWith S l e) : CalledWith S' l e := by
  unfold CalledWith at h ⊢
  split at h
  · exact hS h
  · trivial

/-- The first call gets the token `t` from the token service. -/
theorem run_fetchSteps (challenge' : BearerChallenge) (hS : challenge ∈ S) :
    registryGet.Run (CalledWith S) (pairStart challenge challenge')
      (fetchSteps.map fun e => (0, e)) ⟨tokensOf challenge, Function.update
        (pairStart challenge challenge').task 0 (.retrying smallArgs none "t" true)⟩ :=
  TaskSystem.Run.of_solo (.cons hS rfl (.cons trivial rfl (.cons trivial rfl trivial))) rfl

/-- **Two challenges with one key.** The token that the first call has fetched for its challenge is
handed to the second call, and nothing has been requested for the challenge of that one. -/
theorem exists_handsOut (hne : challenge ≠ challenge')
    (hkey : challenge.cacheKey = challenge'.cacheKey) :
    ∃ ls c c', registryGet.Run (CalledWith {challenge, challenge'})
        (pairStart challenge challenge') ls c ∧
      registryGet.fire c 1 (.check (some "t")) = some c' ∧
      HandsOut challenge' "t" c.shared (c.task 1) (c'.task 1) ∧
      (challenge', "t") ∉ registryGet.observe issuance (pairStart challenge challenge') ls := by
  have hrun := run_fetchSteps challenge' (Set.mem_insert challenge {challenge'})
  have hissued : registryGet.observe issuance (pairStart challenge challenge')
      (fetchSteps.map fun e => (0, e)) = [(challenge, "t")] := rfl
  have htoken : (tokensOf challenge).tokens challenge'.cacheKey = some "t" := by
    simp only [tokensOf, hkey, Function.update_self]
  have hstep : step (tokensOf challenge) (.challenged smallArgs none challenge')
      (.check (some "t")) = some ({ tokensOf challenge with lastChallenge := some challenge' },
        .retrying smallArgs none "t" false) := if_pos htoken
  refine ⟨_, _, _, hrun, TaskSystem.fire_eq_some.mpr ⟨_, _, hstep, rfl⟩,
    .found smallArgs none false, ?_⟩
  rw [hissued, List.mem_singleton]
  intro heq
  exact hne (congrArg Prod.fst heq).symm

/-- **Tokens of different challenges.** Let any number of calls share an authentication state, with
the challenges of `S`. In every run every token that is handed out for a challenge has been issued
for that challenge, exactly when no two challenges of `S` have the same key. -/
theorem neverShared_iff (S : Set BearerChallenge) :
    NeverShared S ↔ S.InjOn BearerChallenge.cacheKey := by
  constructor
  · intro hnever challenge hS challenge' hS' hkey
    by_contra hne
    obtain ⟨ls, c, c', hrun, hfire, hhands, hissued⟩ := exists_handsOut hne hkey
    have hsub : {challenge, challenge'} ⊆ S :=
      Set.insert_subset hS (Set.singleton_subset_iff.mpr hS')
    have hcalled : CalledWith S (c.task 1) (.check (some "t")) := by
      generalize c.task 1 = l, c'.task 1 = l' at hhands
      cases hhands with
      | found => exact hS'
      | cached | stored => trivial
    exact hissued (hnever _ _ _ _ _ _ _ _ rfl (fun _ => trivial)
      (hrun.mono fun _ _ h => h.mono hsub) hcalled hfire hhands)
  · intro hkeys c₀ c c' ls t e challenge token hshared hfresh hrun hcalled hfire hhands
    -- the invariant, with what has been issued in the run
    have hinv := (hrun.observed issuance).locals
      (I := CacheIssued S (· ∈ registryGet.observe issuance c₀ ls))
      (L := CallIssued S (· ∈ registryGet.observe issuance c₀ ls))
      (hshared ▸ cacheIssued_default) (fun t => (hfresh t).callIssued)
      (fun s l e s' l' hs hl hok hstep => issued_step hs hl hok.1 hok.2 hstep)
    exact hhands.issued hkeys hinv.1 (hinv.2 t) hcalled (TaskSystem.fire_step hfire)

end Pair

/-! ### Which keys are different -/

/-- A challenge with a key from which it can be read: without bars in the realm and the service, and
without an empty service or scope. -/
structure BearerChallenge.Plain (challenge : BearerChallenge) : Prop where
  realm : '|' ∉ challenge.realm.toList
  service : '|' ∉ (challenge.service.getD "").toList
  service_ne : challenge.service ≠ some ""
  scope_ne : challenge.scope ≠ some ""

theorem toList_cacheKey (challenge : BearerChallenge) : challenge.cacheKey.toList =
    challenge.realm.toList ++ '|' :: ((challenge.service.getD "").toList ++
      '|' :: (challenge.scope.getD "").toList) := by
  simp only [BearerChallenge.cacheKey, String.toList_append, List.append_assoc]
  rfl

theorem eq_of_getD_eq {a b : Option String} (ha : a ≠ some "") (hb : b ≠ some "")
    (h : a.getD "" = b.getD "") : a = b := by
  cases a with
  | none =>
    cases b with
    | none => rfl
    | some b => exact absurd (congrArg some h.symm) hb
  | some a =>
    cases b with
    | none => exact absurd (congrArg some h) ha
    | some b => exact congrArg some h

/-- Different plain challenges have different keys. -/
theorem cacheKey_injOn : {challenge | BearerChallenge.Plain challenge}.InjOn
    BearerChallenge.cacheKey := by
  intro c hc c' hc' hkey
  have hlists := congrArg String.toList hkey
  rw [toList_cacheKey, toList_cacheKey] at hlists
  -- the key is split at the first bar, and the rest once more
  have hsplit := congrArg (splitOnce '|') hlists
  rw [splitOnce_append_cons hc.realm, splitOnce_append_cons hc'.realm] at hsplit
  obtain ⟨hrealm, hrest⟩ := Prod.mk.inj (Option.some.inj hsplit)
  have hsplit' := congrArg (splitOnce '|') hrest
  rw [splitOnce_append_cons hc.service, splitOnce_append_cons hc'.service] at hsplit'
  obtain ⟨hservice, hscope⟩ := Prod.mk.inj (Option.some.inj hsplit')
  cases c
  cases c'
  rw [BearerChallenge.mk.injEq]
  exact ⟨String.toList_inj.mp hrealm,
    eq_of_getD_eq hc.service_ne hc'.service_ne (String.toList_inj.mp hservice),
    eq_of_getD_eq hc.scope_ne hc'.scope_ne (String.toList_inj.mp hscope)⟩

/-- A header that differs from `smallHeader` in an empty service. -/
def emptyServiceHeader : String :=
  "Bearer realm=\"https://a/t\",service=\"\",scope=\"r:pull,push\""

/-- The challenge in `emptyServiceHeader`. -/
def emptyServiceChallenge : BearerChallenge := { smallChallenge with service := some "" }

theorem emptyServiceHeader_challenge :
    bearerChallengeFromHeaders (some (.ok emptyServiceHeader)) =
      .ok (some emptyServiceChallenge) := by
  decide +kernel

/-- A registry asks for a token without a service and then for one with an empty service. The second
challenge is answered with the token for the first one. -/
theorem token_shared :
    bearerChallengeFromHeaders (some (.ok smallHeader)) = .ok (some smallChallenge) ∧
    bearerChallengeFromHeaders (some (.ok emptyServiceHeader)) = .ok (some emptyServiceChallenge) ∧
    ∃ ls c c', registryGet.Run (CalledWith {smallChallenge, emptyServiceChallenge})
        (pairStart smallChallenge emptyServiceChallenge) ls c ∧
      registryGet.fire c 1 (.check (some "t")) = some c' ∧
      HandsOut emptyServiceChallenge "t" c.shared (c.task 1) (c'.task 1) ∧
      (emptyServiceChallenge, "t") ∉
        registryGet.observe issuance (pairStart smallChallenge emptyServiceChallenge) ls :=
  ⟨smallHeader_challenge, emptyServiceHeader_challenge, exists_handsOut (by decide) (by decide)⟩

end Oci

end Lazyd
