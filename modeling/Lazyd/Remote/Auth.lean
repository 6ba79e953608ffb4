import Lazyd.Library.TaskSystem
import Lazyd.Remote.Basic
import Lazyd.Remote.Challenge

/-!
# Requests to a registry that wants bearer tokens

`registry_get` as a task system over the `RegistryAuthState` that all reads of a backend share. A
call sends its request with the cached token; if the registry answers 401 with a challenge, the call
gets a token for the challenge and sends the request once more. A token for the challenge that is in
the cache already is taken from there, also the one that has just been rejected.

The registry and the token service are the environment. Which tokens are valid may change from one
request to the next, so the set of valid tokens is part of the event in which a request is answered.

## Main definitions

* `Oci.RegistryAuthState`, `Oci.GetState`, `Oci.Event`, `Oci.step`, `Oci.registryGet`.
* `Oci.Serves` : the registry and the token service.
* `Oci.Renews` : the answers with which no rejected or expired token comes out of the cache.
* `Oci.Accepted` : the registry's last answer is not 401, and a rejected token is not sent again.

## Main results

* `Oci.Effect.of_step` : everything that a step can do.
* `Oci.registryGet_accepted` : the calls that are accepted.
* `Oci.expired_token_sent_again` : a token that has expired.

Source: `src/remote/oci.rs`, lines 44–53 and 215–331; `docs/prepare-image-api.md`, lines 77–80.
-/

namespace Lazyd

namespace Oci

/-! ### The task system -/

structure RegistryAuthState where
  tokens : String → Option String
  lastChallenge : Option BearerChallenge

/-- `RegistryAuthState::default` -/
def RegistryAuthState.default : RegistryAuthState where
  tokens _ := none
  lastChallenge := none

/-- `RegistryAuthState::cached_token` -/
def RegistryAuthState.cachedToken (s : RegistryAuthState) : Option String :=
  match s.lastChallenge with
  | none => none
  | some challenge => s.tokens challenge.cacheKey

/-- The value of the `Authorization` header. -/
inductive Authorization where
  | bearer (token : String)
  | basic (auth : AuthConfig)
  deriving DecidableEq, Repr

structure Request where
  url : String
  accept : Option String
  range : Option String
  authorization : Option Authorization
  deriving DecidableEq, Repr

/-- The token that a request carries. -/
def Request.token (request : Request) : Option String :=
  match request.authorization with
  | some (.bearer token) => some token
  | _ => none

/-- The arguments of `registry_get`. -/
structure GetArgs where
  url : String
  auth : Option AuthConfig
  accept : Option String
  range : Option String
  deriving DecidableEq, Repr

/-- The request that `send_registry_get` sends. -/
def GetArgs.request (args : GetArgs) (bearerToken : Option String) : Request where
  url := args.url
  accept := args.accept
  range := args.range
  authorization :=
    match bearerToken with
    | some token => some (.bearer token)
    | none => args.auth.map .basic

structure Response where
  status : ℕ
  wwwAuthenticate : Option HeaderValue
  deriving DecidableEq, Repr

structure TokenResponse where
  token : Option String
  accessToken : Option String
  deriving DecidableEq, Repr

/-- The answer of the token service: the status, its text and the body. -/
structure TokenAnswer where
  status : ℕ
  statusText : String
  json : Except Error TokenResponse

/-- `fetch_bearer_token`, on the answer to its request. -/
def fetchBearerToken : Except Error TokenAnswer → Except Error String
  | .error err => .error err
  | .ok answer =>
    if answer.status ≠ 200 then
      .error (.remote ("registry token request failed with status " ++ answer.statusText))
    else
      match answer.json with
      | .error err => .error err
      | .ok response =>
        match response.token.or response.accessToken with
        | some token => .ok token
        | none => .error (.remote "registry token response did not contain token")

/-- Where a call of `registry_get` stands. `first` is the token of its first request. -/
inductive GetState where
  | idle
  /-- before `cached_token` -/
  | called (args : GetArgs)
  /-- awaiting the answer to the first request -/
  | sending (args : GetArgs) (first : Option String)
  /-- before the first critical section of `token_for_challenge` -/
  | challenged (args : GetArgs) (first : Option String) (challenge : BearerChallenge)
  /-- awaiting the token service -/
  | fetching (args : GetArgs) (first : Option String) (challenge : BearerChallenge)
  /-- before the second critical section of `token_for_challenge` -/
  | storing (args : GetArgs) (first : Option String) (challenge : BearerChallenge) (token : String)
  /-- awaiting the answer to the second request -/
  | retrying (args : GetArgs) (first : Option String) (token : String) (fetched : Bool)
  | returned (res : Except Error Response)
  /-- the future has been dropped -/
  | dropped

/-- A step of a call, with the answer of the environment or what it finds in the cache. -/
inductive Event where
  | call (args : GetArgs)
  | lookup
  /-- the registry answers, with the given tokens valid -/
  | response (valid : String → Bool) (res : Except Error Response)
  | check (found : Option String)
  | token (answer : Except Error TokenAnswer)
  | store
  | drop

/-- The call has neither returned nor been dropped. -/
def GetState.running : GetState → Bool
  | .idle | .returned _ | .dropped => false
  | _ => true

/-- The registry has answered the first request. -/
def received (args : GetArgs) (first : Option String) : Except Error Response → GetState
  | .error err => .returned (.error err)
  | .ok response =>
    if response.status ≠ 401 then .returned (.ok response)
    else
      match bearerChallengeFromHeaders response.wwwAuthenticate with
      | .error err => .returned (.error err)
      | .ok none => .returned (.ok response)
      | .ok (some challenge) => .challenged args first challenge

/-- The token service has answered. -/
def tokenReceived (args : GetArgs) (first : Option String) (challenge : BearerChallenge) :
    Except Error String → GetState
  | .error err => .returned (.error err)
  | .ok token => .storing args first challenge token

/-- The first critical section of `token_for_challenge` has found a token or none. -/
def checked (args : GetArgs) (first : Option String) (challenge : BearerChallenge) :
    Option String → GetState
  | some token => .retrying args first token false
  | none => .fetching args first challenge

/-- One step of a call. -/
def step (s : RegistryAuthState) : GetState → Event → Option (RegistryAuthState × GetState)
  | .idle, .call args => some (s, .called args)
  | .called args, .lookup => some (s, .sending args s.cachedToken)
  | .sending args first, .response _ res => some (s, received args first res)
  | .challenged args first challenge, .check found =>
    if s.tokens challenge.cacheKey = found then
      some ({ s with lastChallenge := some challenge }, checked args first challenge found)
    else none
  | .fetching args first challenge, .token answer =>
    some (s, tokenReceived args first challenge (fetchBearerToken answer))
  | .storing args first challenge token, .store =>
    some ({ tokens := Function.update s.tokens challenge.cacheKey (some token)
            lastChallenge := some challenge }, .retrying args first token true)
  | .retrying _ _ _ _, .response _ res => some (s, .returned res)
  | l, .drop => if l.running then some (s, .dropped) else none
  | _, _ => none

/-- The task system of the calls of `registry_get` that share an authentication state. -/
def registryGet : TaskSystem RegistryAuthState GetState Event := ⟨step⟩

/-! ### The registry and the token service -/

/-- A request with a valid token is not answered with 401, and one without is, with a challenge. -/
def Answers (valid : String → Bool) (request : Request) (res : Except Error Response) : Prop :=
  ∃ response, res = .ok response ∧
    if request.token.any valid then response.status ≠ 401
    else response.status = 401 ∧
      ∃ challenge, bearerChallengeFromHeaders response.wwwAuthenticate = .ok (some challenge)

/-- The registry answers every request, and the token service issues tokens that are valid for the
rest of the call that has asked for them. -/
def Serves : GetState → Event → Prop
  | .sending args first, .response valid res => Answers valid (args.request first) res
  | .retrying args _ token fetched, .response valid res =>
    Answers valid (args.request (some token)) res ∧ (fetched = true → valid token = true)
  | _, .token answer => ∃ token, fetchBearerToken answer = .ok token
  | _, _ => True

/-- What a call sends as the answer to a challenge is not the token that has been rejected; and if
it is from the cache, it is valid when the request arrives. -/
def Renews : GetState → Event → Prop
  | .challenged _ first _, .check (some token) => first ≠ some token
  | .fetching _ first _, .token answer => ∀ token, fetchBearerToken answer = .ok token →
      first ≠ some token
  | .retrying _ _ token false, .response valid _ => valid token = true
  | _, _ => True

/-- A call that has returned has an answer other than 401, and one that answers a challenge does not
answer it with the rejected token. -/
def Accepted : GetState → Prop
  | .storing _ first _ token | .retrying _ first token _ => first ≠ some token
  | .returned res => ∃ response, res = .ok response ∧ response.status ≠ 401
  | _ => True

@[simp] theorem token_request (args : GetArgs) (token : Option String) :
    (args.request token).token = token := by
  cases token with
  | some => rfl
  | none => cases hauth : args.auth <;> simp [GetArgs.request, Request.token, hauth]

/-! ### What a step can do -/

/-- The effects of a step, one constructor for each branch of `step`. -/
inductive Effect (s : RegistryAuthState) :
    GetState → Event → RegistryAuthState → GetState → Prop
  | call (args : GetArgs) : Effect s .idle (.call args) s (.called args)
  | lookup (args : GetArgs) : Effect s (.called args) .lookup s (.sending args s.cachedToken)
  | response (args : GetArgs) (first : Option String) (valid : String → Bool)
      (res : Except Error Response) :
      Effect s (.sending args first) (.response valid res) s (received args first res)
  | check (args : GetArgs) (first : Option String) (challenge : BearerChallenge)
      (found : Option String) (h : s.tokens challenge.cacheKey = found) :
      Effect s (.challenged args first challenge) (.check found)
        { s with lastChallenge := some challenge } (checked args first challenge found)
  | token (args : GetArgs) (first : Option String) (challenge : BearerChallenge)
      (answer : Except Error TokenAnswer) :
      Effect s (.fetching args first challenge) (.token answer) s
        (tokenReceived args first challenge (fetchBearerToken answer))
  | store (args : GetArgs) (first : Option String) (challenge : BearerChallenge) (token : String) :
      Effect s (.storing args first challenge token) .store
        { tokens := Function.update s.tokens challenge.cacheKey (some token)
          lastChallenge := some challenge } (.retrying args first token true)
  | retried (args : GetArgs) (first : Option String) (token : String) (fetched : Bool)
      (valid : String → Bool) (res : Except Error Response) :
      Effect s (.retrying args first token fetched) (.response valid res) s (.returned res)
  | drop (l : GetState) (h : l.running = true) : Effect s l .drop s .dropped

/-- **Step inversion.** Every step is one of the effects. -/
theorem Effect.of_step {s s' : RegistryAuthState} {l l' : GetState} {e : Event}
    (h : step s l e = some (s', l')) : Effect s l e s' l' := by
  unfold step at h
  split at h
  · obtain ⟨rfl, rfl⟩ := Prod.mk.inj (Option.some.inj h)
    exact .call _
  · obtain ⟨rfl, rfl⟩ := Prod.mk.inj (Option.some.inj h)
    exact .lookup _
  · obtain ⟨rfl, rfl⟩ := Prod.mk.inj (Option.some.inj h)
    exact .response _ _ _ _
  · split_ifs at h with hfound
    obtain ⟨rfl, rfl⟩ := Prod.mk.inj (Option.some.inj h)
    exact .check _ _ _ _ hfound
  · obtain ⟨rfl, rfl⟩ := Prod.mk.inj (Option.some.inj h)
    exact .token _ _ _ _
  · obtain ⟨rfl, rfl⟩ := Prod.mk.inj (Option.some.inj h)
    exact .store _ _ _ _
  · obtain ⟨rfl, rfl⟩ := Prod.mk.inj (Option.some.inj h)
    exact .retried _ _ _ _ _ _
  · split_ifs at h with hrunning
    obtain ⟨rfl, rfl⟩ := Prod.mk.inj (Option.some.inj h)
    exact .drop _ hrunning
  · exact absurd h (by simp)

/-! ### Accepted calls -/

/-- **The step lemma.** A step keeps its call accepted exactly when no rejected or expired token
comes out of the cache in it. -/
theorem accepted_step_iff {s s' : RegistryAuthState} {l l' : GetState} {e : Event}
    (hl : Accepted l) (hok : Serves l e) (h : step s l e = some (s', l')) :
    Accepted l' ↔ Renews l e := by
  cases Effect.of_step h with
  | call | lookup => exact iff_of_true trivial trivial
  | drop l hrunning =>
    refine iff_of_true trivial ?_
    cases l with
    | retrying _ _ _ fetched => cases fetched <;> trivial
    | _ => trivial
  | response args first valid res =>
    refine iff_of_true ?_ trivial
    obtain ⟨response, rfl, hanswer⟩ := hok
    rw [token_request] at hanswer
    rw [received]
    by_cases hstatus : response.status = 401
    · rw [if_neg (not_not.mpr hstatus)]
      split_ifs at hanswer
      · exact absurd hstatus hanswer
      · obtain ⟨-, challenge, hchallenge⟩ := hanswer
        rw [hchallenge]
        trivial
    · rw [if_pos hstatus]
      exact ⟨response, rfl, hstatus⟩
  | check args first challenge found =>
    cases found with
    | none => exact iff_of_true trivial trivial
    | some token => exact Iff.rfl
  | token args first challenge answer =>
    obtain ⟨token, htoken⟩ := hok
    rw [htoken]
    refine ⟨fun hne token' htoken' => ?_, fun hne => hne token htoken⟩
    obtain rfl := Except.ok.inj (htoken.symm.trans htoken')
    exact hne
  | store => exact iff_of_true hl trivial
  | retried args first token fetched valid res =>
    obtain ⟨⟨response, rfl, hanswer⟩, hfetched⟩ := hok
    rw [token_request, Option.any_some] at hanswer
    have hreturned : Accepted (.returned (.ok response)) ↔ valid token = true := by
      split_ifs at hanswer with hvalid
      · exact iff_of_true ⟨response, rfl, hanswer⟩ hvalid
      · refine iff_of_false ?_ hvalid
        rintro ⟨response', hresponse', hne⟩
        obtain rfl := Except.ok.inj hresponse'
        exact hne hanswer.1
    cases fetched with
    | false => exact hreturned
    | true => exact iff_of_true (hreturned.mpr (hfetched rfl)) trivial

/-! ### Calls end -/

/-- The number of steps that a call can still make. -/
def GetState.remaining : GetState → ℕ
  | .idle => 7
  | .called _ => 6
  | .sending _ _ => 5
  | .challenged _ _ _ => 4
  | .fetching _ _ _ => 3
  | .storing _ _ _ _ => 2
  | .retrying _ _ _ _ => 1
  | .returned _ | .dropped => 0

theorem remaining_step {s s' : RegistryAuthState} {l l' : GetState} {e : Event}
    (h : step s l e = some (s', l')) : l'.remaining < l.remaining := by
  cases Effect.of_step h with
  | call | lookup | store | retried => simp [GetState.remaining]
  | response args first valid res =>
    unfold received
    split
    · simp [GetState.remaining]
    · split_ifs
      · simp [GetState.remaining]
      · split <;> simp [GetState.remaining]
  | check args first challenge found => cases found <;> simp [checked, GetState.remaining]
  | token args first challenge answer =>
    cases fetchBearerToken answer <;> simp [tokenReceived, GetState.remaining]
  | drop l hrunning =>
    cases l <;> simp [GetState.remaining, GetState.running] at hrunning ⊢

/-- A response that asks for `smallChallenge`. -/
def unauthorized : Response where
  status := 401
  wwwAuthenticate := some (.ok smallHeader)

theorem received_unauthorized (args : GetArgs) (first : Option String) :
    received args first (.ok unauthorized) = .challenged args first smallChallenge := by
  simp only [received, unauthorized, smallHeader_challenge, ne_eq, not_true_eq_false, if_false]

theorem serves_unauthorized (args : GetArgs) (first : Option String) :
    Serves (.sending args first) (.response (fun _ => false) (.ok unauthorized)) := by
  refine ⟨unauthorized, rfl, ?_⟩
  rw [if_neg (by cases (args.request first).token <;> simp)]
  exact ⟨rfl, smallChallenge, smallHeader_challenge⟩

theorem answers_valid {args : GetArgs} {token : String} {valid : String → Bool}
    {response : Response} (hvalid : valid token = true) (h : response.status ≠ 401) :
    Answers valid (args.request (some token)) (.ok response) := by
  refine ⟨response, rfl, ?_⟩
  rw [token_request, Option.any_some, if_pos hvalid]
  exact h

theorem exists_step (s : RegistryAuthState) {l : GetState} (h : l.running = true) :
    ∃ e s' l', Serves l e ∧ step s l e = some (s', l') ∧
      (l'.running = true ∨ ∃ res, l' = .returned res) := by
  cases l with
  | idle | returned | dropped => exact absurd h (by simp [GetState.running])
  | called args => exact ⟨.lookup, _, _, trivial, rfl, Or.inl rfl⟩
  | sending args first =>
    refine ⟨_, _, _, serves_unauthorized args first, rfl, Or.inl ?_⟩
    rw [received_unauthorized]
    rfl
  | challenged args first challenge =>
    refine ⟨.check (s.tokens challenge.cacheKey), _, _, trivial, if_pos rfl, Or.inl ?_⟩
    cases s.tokens challenge.cacheKey <;> rfl
  | fetching args first challenge =>
    exact ⟨.token (.ok ⟨200, "200 OK", .ok ⟨some "t", none⟩⟩), _, _, ⟨"t", rfl⟩, rfl, Or.inl rfl⟩
  | storing args first challenge token => exact ⟨.store, _, _, trivial, rfl, Or.inl rfl⟩
  | retrying args first token fetched =>
    have hanswers : Answers (fun _ => true) (args.request (some token)) (.ok ⟨206, none⟩) :=
      answers_valid rfl (by decide)
    exact ⟨.response (fun _ => true) (.ok ⟨206, none⟩), s, .returned (.ok ⟨206, none⟩),
      ⟨hanswers, fun _ => rfl⟩, rfl, Or.inr ⟨_, rfl⟩⟩

section Runs

variable {τ : Type*} [DecidableEq τ] {c₀ c : TaskSystem.Config RegistryAuthState GetState τ}
  {ls : List (τ × Event)}

theorem exists_run_returned {t : τ} (h : (c.task t).running = true) :
    ∃ ls c' res, registryGet.Run Serves c ls c' ∧ c'.task t = .returned res := by
  induction hn : (c.task t).remaining using Nat.strong_induction_on generalizing c with
  | _ n ih =>
    obtain ⟨e, s', l', hserves, hstep, hnext⟩ := exists_step c.shared h
    have hfire : registryGet.fire c t e = some ⟨s', Function.update c.task t l'⟩ :=
      TaskSystem.fire_eq_some.mpr ⟨s', l', hstep, rfl⟩
    have hrun := TaskSystem.Run.nil.snoc hserves hfire
    have hself : Function.update c.task t l' t = l' := Function.update_self _ _ _
    rcases hnext with hrunning | ⟨res, rfl⟩
    · have hless : l'.remaining < n := hn ▸ remaining_step hstep
      obtain ⟨ls, c', res, hrun', hret⟩ := ih _ hless (c := ⟨s', Function.update c.task t l'⟩)
        ((congrArg GetState.running hself).trans hrunning) (congrArg GetState.remaining hself)
      exact ⟨_, c', res, hrun.append hrun', hret⟩
    · exact ⟨_, _, res, hrun, hself⟩

/-- **Accepted calls.** Let any number of calls share an authentication state. In every run with the
registry and the token service in which no rejected or expired token comes out of the cache, every
call that has returned has an answer other than 401, and no challenge is answered with the token
that has just been rejected. The condition is exact: any other step makes its call one that is not
accepted. Every call can be brought to its end. -/
theorem registryGet_accepted (hidle : ∀ t, c₀.task t = .idle)
    (hrun : registryGet.Run (fun l e => Serves l e ∧ Renews l e) c₀ ls c) :
    (∀ t, Accepted (c.task t)) ∧
    (∀ t e c', Serves (c.task t) e → registryGet.fire c t e = some c' →
      (Accepted (c'.task t) ↔ Renews (c.task t) e)) ∧
    ∀ t, (c.task t).running = true →
      ∃ ls' c' res, registryGet.Run Serves c ls' c' ∧ c'.task t = .returned res := by
  have haccepted : ∀ t, Accepted (c.task t) := by
    refine (hrun.locals (I := fun _ => True) trivial (fun t => ?_) ?_).2
    · rw [hidle t]
      trivial
    · intro s l e s' l' _ hl hok hstep
      exact ⟨trivial, (accepted_step_iff hl hok.1 hstep).mpr hok.2⟩
  refine ⟨haccepted, fun t e c' hserves hfire => ?_, fun t => exists_run_returned⟩
  obtain ⟨s', l', hstep, rfl⟩ := TaskSystem.fire_eq_some.mp hfire
  change Accepted (Function.update c.task t l' t) ↔ _
  rw [Function.update_self]
  exact accepted_step_iff (haccepted t) hserves hstep

end Runs

/-! ### A token that has expired -/

/-- A read of the first byte of a blob. -/
def smallArgs : GetArgs where
  url := "https://a/v2/r/blobs/sha256:abc"
  auth := none
  accept := none
  range := some "bytes=0-0"

/-- Calls that have not been made yet. -/
def authStart : TaskSystem.Config RegistryAuthState GetState ℕ where
  shared := .default
  task _ := .idle

/-- The state after the token `t` has been fetched for `smallChallenge`. -/
def smallTokens : RegistryAuthState where
  tokens := Function.update (fun _ => none) smallChallenge.cacheKey (some "t")
  lastChallenge := some smallChallenge

/-- The steps of a call up to the challenge, and then others. -/
def challengedThen (es : List Event) : List Event :=
  .call smallArgs :: .lookup :: .response (fun _ => false) (.ok unauthorized) :: es

theorem solo_challengedThen (s : RegistryAuthState) (es : List Event) :
    registryGet.solo s .idle (challengedThen es) =
      registryGet.solo s (.challenged smallArgs s.cachedToken smallChallenge) es := by
  simp only [challengedThen, TaskSystem.solo, registryGet, step, Option.bind_some,
    received_unauthorized]

theorem soloOk_challengedThen {s : RegistryAuthState} {es : List Event}
    (h : registryGet.SoloOk (fun l e => Serves l e ∧ Renews l e) s
      (.challenged smallArgs s.cachedToken smallChallenge) es) :
    registryGet.SoloOk (fun l e => Serves l e ∧ Renews l e) s .idle (challengedThen es) := by
  rw [← received_unauthorized] at h
  exact .cons ⟨trivial, trivial⟩ rfl (.cons ⟨trivial, trivial⟩ rfl
    (.cons ⟨serves_unauthorized _ _, trivial⟩ rfl h))

/-- The steps of the first call: it gets a token, and its read succeeds. -/
def firstCall : List Event :=
  challengedThen [.check none, .token (.ok ⟨200, "200 OK", .ok ⟨some "t", none⟩⟩), .store,
    .response (fun token => token == "t") (.ok ⟨206, none⟩)]

theorem solo_firstCall : registryGet.solo .default .idle firstCall =
    some (smallTokens, .returned (.ok ⟨206, none⟩)) :=
  (solo_challengedThen _ _).trans rfl

theorem soloOk_firstCall :
    registryGet.SoloOk (fun l e => Serves l e ∧ Renews l e) .default .idle firstCall := by
  have hanswers : Answers (fun token => token == "t") (smallArgs.request (some "t"))
      (.ok ⟨206, none⟩) := answers_valid rfl (by decide)
  refine soloOk_challengedThen ?_
  refine .cons ⟨trivial, trivial⟩ rfl (.cons ⟨⟨"t", rfl⟩, fun token _ => ?_⟩ rfl
    (.cons ⟨trivial, trivial⟩ rfl (.cons ⟨⟨hanswers, fun _ => rfl⟩, trivial⟩ rfl trivial)))
  exact Option.some_ne_none token |>.symm

/-- The state after the first call. -/
def afterFirstCall : TaskSystem.Config RegistryAuthState GetState ℕ where
  shared := smallTokens
  task := Function.update authStart.task 0 (.returned (.ok ⟨206, none⟩))

theorem run_firstCall : registryGet.Run (fun l e => Serves l e ∧ Renews l e) authStart
    (firstCall.map fun e => (0, e)) afterFirstCall :=
  TaskSystem.Run.of_solo soloOk_firstCall solo_firstCall

/-- The first call is accepted. -/
theorem registryGet_accepted_small : ∃ ls,
    registryGet.Run (fun l e => Serves l e ∧ Renews l e) authStart ls afterFirstCall ∧
    Accepted (afterFirstCall.task 0) :=
  ⟨_, run_firstCall, (registryGet_accepted (fun _ => rfl) run_firstCall).1 0⟩

/-- The token has expired: the second call takes it from the cache again after the registry has
rejected it, and ends with the second rejection. -/
theorem expired_token_sent_again : ∃ ls c c',
    registryGet.Run Serves authStart ls c ∧ c.task 1 = .retrying smallArgs (some "t") "t" false ∧
    Serves (c.task 1) (.response (fun _ => false) (.ok unauthorized)) ∧
    registryGet.fire c 1 (.response (fun _ => false) (.ok unauthorized)) = some c' ∧
    c'.task 1 = .returned (.ok unauthorized) := by
  have hkey : smallTokens.tokens smallChallenge.cacheKey = some "t" := by
    simp only [smallTokens, Function.update_self]
  have hfirst := run_firstCall.mono fun l e (h : Serves l e ∧ Renews l e) => h.1
  -- the second call up to the challenge
  have hcached : smallTokens.cachedToken = some "t" := by
    rw [RegistryAuthState.cachedToken]
    exact hkey
  have hchallenged : registryGet.solo smallTokens .idle (challengedThen []) =
      some (smallTokens, .challenged smallArgs (some "t") smallChallenge) := by
    rw [solo_challengedThen, hcached]
    rfl
  have hok : registryGet.SoloOk (fun l e => Serves l e ∧ Renews l e) smallTokens .idle
      (challengedThen []) := soloOk_challengedThen trivial
  have hsecond := (TaskSystem.Run.of_solo (c := afterFirstCall) (t := 1) hok hchallenged).mono
    fun _ _ h => h.1
  -- it finds the rejected token
  have hstep : step smallTokens (.challenged smallArgs (some "t") smallChallenge)
      (.check (some "t")) = some (smallTokens, .retrying smallArgs (some "t") "t" false) := by
    rw [step, if_pos hkey]
    rfl
  let c : TaskSystem.Config RegistryAuthState GetState ℕ := ⟨smallTokens, Function.update
    afterFirstCall.task 1 (.challenged smallArgs (some "t") smallChallenge)⟩
  have htask : c.task 1 = .challenged smallArgs (some "t") smallChallenge := rfl
  have hfire : registryGet.fire c 1 (.check (some "t")) = some ⟨smallTokens,
      Function.update c.task 1 (.retrying smallArgs (some "t") "t" false)⟩ :=
    TaskSystem.fire_eq_some.mpr ⟨_, _, by rw [htask]; exact hstep, rfl⟩
  have hrun := (hfirst.append hsecond).snoc (c := c) (by rw [htask]; trivial) hfire
  refine ⟨_, _, _, hrun, rfl, ⟨⟨unauthorized, rfl, ?_⟩, by simp⟩, rfl, rfl⟩
  rw [token_request, if_neg (by simp)]
  exact ⟨rfl, smallChallenge, smallHeader_challenge⟩

end Oci

end Lazyd
