import Lazyd.Library.Simulation
import Lazyd.Control.Responses
import Lazyd.Control.Routes
import Lazyd.Instance.Inflight
import Lazyd.Instance.Replies
import Lazyd.Remote.Auth

/-!
# Fetching from a registry

`ensure_range` awaits `read_range`, which sends a request with a `Range` header, gets a token if the
registry asks for one, and sends the request once more. All reads of an instance share its tokens.
Here the calls of `ensure_range` are put together with the requests that they await, step by step,
and the environment is a registry that sees requests: it reads the header and answers with the bytes
that the header asks for, with all of the blob, with a part, with a challenge or with anything that
is no success. What has been proved of `ensure_range` for an honest remote holds on such a registry.

## Main definitions

* `Oci.rangeRequest`, `Oci.rangeReceived` : `read_range` before and after its request.
* `OciRemoteBackend`, `RemoteReads.step`, `RemoteReads.reads` : the calls with their requests.
* `RemoteReads.Registry` : the registry.

## Main results

* `RemoteReads.Effect.of_step` : everything that a step can do.
* `RemoteReads.ensures` : the calls with their requests do what the calls do on an honest remote.
* `RemoteReads.registry_reads_sound` : soundness on a registry.

Source: `src/remote/oci.rs`, lines 17–41, 180–244 and 269–297; `src/instance.rs`, lines 229–261.
-/

namespace Lazyd

namespace Oci

/-! ### `read_range` and its request -/

/-- `read_range` up to its request: the value of the `Range` header, or the result without a
request. -/
def rangeRequest (offset len : ℕ) : Except (Except Error (List UInt8)) String :=
  if len = 0 then .error (.ok [])
  else
    match (U64.checkedAdd offset len).bind fun v => U64.checkedSub v 1 with
    | none => .error (.error (.badRequest "range overflows u64"))
    | some last => .ok (rangeHeader offset last)

/-- `read_range` from the answer to its request on. -/
def rangeReceived (len : ℕ) : Except Error RangeResponse → Except Error (List UInt8)
  | .error err => .error err
  | .ok response =>
    if response.status ≠ 206 ∧ response.status ≠ 200 then
      .error (.remote ("registry range read failed with status " ++ response.statusText))
    else
      match response.bytes with
      | .error err => .error err
      | .ok bytes =>
        if len < bytes.length then .error (.remote "registry returned more bytes than requested")
        else .ok bytes

/-- The two parts are `read_range`. -/
theorem readRange_eq_received (get : String → Except Error RangeResponse) (offset len : ℕ) :
    readRange get offset len =
      match rangeRequest offset len with
      | .error res => res
      | .ok header => rangeReceived len (get header) := by
  unfold readRange rangeRequest
  by_cases hlen : len = 0
  · rw [if_pos hlen, if_pos hlen]
  · rw [if_neg hlen, if_neg hlen]
    cases (U64.checkedAdd offset len).bind fun v => U64.checkedSub v 1 with
    | none => rfl
    | some last =>
      dsimp only
      generalize get (rangeHeader offset last) = res
      cases res <;> rfl

theorem rangeRequest_ok {offset len : ℕ} (hlen : 0 < len) (hlt : offset + len < U64.size) :
    rangeRequest offset len = .ok (rangeHeader offset (offset + len - 1)) := by
  have hsub : U64.checkedSub (offset + len) 1 = some (offset + len - 1) :=
    U64.checkedSub_of_le (by omega)
  simp only [rangeRequest, hlen.ne', ↓reduceIte, U64.checkedAdd_of_lt hlt, Option.bind_some, hsub]

/-- What has the length of the range is the range. -/
theorem rangeReceived_agrees {blob : ℕ → UInt8} {size offset len : ℕ} {response : RangeResponse}
    {bytes : List UInt8} (h : RangeAnswer blob size offset (offset + len - 1) response)
    (hle : offset + len ≤ size) (hreceived : rangeReceived len (.ok response) = .ok bytes)
    (hbytes : bytes.length = len) : SparseFile.Agrees blob offset bytes := by
  rw [rangeReceived] at hreceived
  split_ifs at hreceived with hstatus
  split at hreceived
  · exact absurd hreceived (by simp)
  · rename_i body hbody
    split_ifs at hreceived
    obtain rfl := Except.ok.inj hreceived
    rw [h.bytes_eq hle (by omega) hbody hbytes]
    exact SparseFile.agrees_slice _ _ _

/-! ### The registry -/

/-- The registry has the blob at the given URL, and answers a request for a range of it. -/
def AnswersRange (url : String) (blob : ℕ → UInt8) (size : ℕ) (request : Request)
    (response : RangeResponse) : Prop :=
  ∀ header first last, request.url = url → request.range = some header →
    parseByteRange header = some (first, last) → last < size →
      RangeAnswer blob size first last response

/-- The positions in the blob that a request asks for. -/
def Request.positions (request : Request) : Set ℕ :=
  {p | ∃ header first last, request.range = some header ∧
    parseByteRange header = some (first, last) ∧ first ≤ p ∧ p ≤ last}

/-! ### The steps of a request -/

/-- The request that a call of `registry_get` awaits. -/
def GetState.request : GetState → Option Request
  | .sending args first => some (args.request first)
  | .retrying args _ token _ => some (args.request (some token))
  | _ => none

/-- The arguments of a call of `registry_get` that is under way. -/
def GetState.args : GetState → Option GetArgs
  | .called args | .sending args _ | .challenged args _ _ | .fetching args _ _
  | .storing args _ _ _ | .retrying args _ _ _ => some args
  | .idle | .returned _ | .dropped => none

theorem request_of_args {g : GetState} {request : Request} (h : g.request = some request) :
    ∃ args token, g.args = some args ∧ request = args.request token := by
  unfold GetState.request at h
  split at h
  · exact ⟨_, _, rfl, (Option.some.inj h).symm⟩
  · exact ⟨_, _, rfl, (Option.some.inj h).symm⟩
  · exact absurd h (by simp)

/-- A step in which a token is found, got or stored. -/
def Event.IsToken : Event → Prop
  | .lookup | .check _ | .token _ | .store => True
  | .call _ | .response _ _ | .drop => False

variable {s s' : RegistryAuthState} {g g' : GetState}

theorem token_step {e : Event} (he : e.IsToken) (h : step s g e = some (s', g')) :
    (∀ args, g'.args = some args → g.args = some args) ∧ ∀ r, g' ≠ .returned (.ok r) := by
  cases Effect.of_step h with
  | call | response | retried | drop => exact he.elim
  | lookup => exact ⟨fun _ h => h, by simp⟩
  | check args first challenge found => cases found <;> exact ⟨fun _ h => h, by simp [checked]⟩
  | token args first challenge answer =>
    cases fetchBearerToken answer with
    | error err => exact ⟨by simp [tokenReceived, GetState.args], by simp [tokenReceived]⟩
    | ok token => exact ⟨fun _ h => h, by simp [tokenReceived]⟩
  | store => exact ⟨fun _ h => h, by simp⟩

/-- A response answers the request that is awaited, which stays the same if it is sent again. -/
theorem response_step {valid : String → Bool} {res : Except Error Response}
    (h : step s g (.response valid res) = some (s', g')) :
    s' = s ∧ g.request.isSome = true ∧ (∀ args, g'.args = some args → g.args = some args) ∧
      ∀ r, g' = .returned (.ok r) → res = .ok r := by
  cases Effect.of_step h with
  | retried args first token fetched =>
    refine ⟨rfl, rfl, by simp [GetState.args], fun r hr => ?_⟩
    exact GetState.returned.inj hr
  | response args first =>
    refine ⟨rfl, rfl, fun args' hargs => ?_, fun r hr => ?_⟩
    · unfold received at hargs
      split at hargs
      · exact absurd hargs (by simp [GetState.args])
      · split_ifs at hargs
        · exact absurd hargs (by simp [GetState.args])
        · split at hargs
          · exact absurd hargs (by simp [GetState.args])
          · exact absurd hargs (by simp [GetState.args])
          · exact hargs
    · unfold received at hr
      split at hr
      · exact absurd hr (by simp)
      · split_ifs at hr
        · rw [Except.ok.inj (GetState.returned.inj hr)]
        · split at hr
          · exact absurd hr (by simp)
          · rw [Except.ok.inj (GetState.returned.inj hr)]
          · exact absurd hr (by simp)

end Oci

/-! ### The calls with their requests -/

/-- What the reads of an instance have in common, apart from their tokens. -/
structure OciRemoteBackend where
  blobUrl : String
  auth : Option AuthConfig
  deriving DecidableEq, Repr

/-- The arguments with which `read_range` calls `registry_get`. -/
def OciRemoteBackend.getArgs (backend : OciRemoteBackend) (header : String) : Oci.GetArgs where
  url := backend.blobUrl
  auth := backend.auth
  accept := none
  range := some header

/-- A response with its body. -/
structure BlobResponse where
  response : Oci.Response
  /-- the status as a text -/
  statusText : String
  /-- what reading the body ends with -/
  bytes : Except Error (List UInt8)

/-- A response, as far as `read_range` looks at it. -/
def BlobResponse.range (res : BlobResponse) : Oci.RangeResponse :=
  ⟨res.response.status, res.statusText, res.bytes⟩

namespace RemoteReads

/-- What the tasks share: the state of the instance and the tokens of its remote. -/
structure Shared where
  ensure : Instance.Shared
  auth : Oci.RegistryAuthState

/-- A call of `ensure_range` with the call of `registry_get` that it awaits. -/
structure ReadTask where
  ensure : Instance.TaskState
  get : Oci.GetState
  /-- the last response -/
  response : Option Oci.RangeResponse

inductive Event where
  /-- a step of `ensure_range` outside its read -/
  | ensure (e : Instance.Event)
  /-- `read_range` up to its request -/
  | call
  /-- a step of `registry_get` between its requests -/
  | token (e : Oci.Event)
  /-- the registry answers, with the given tokens valid -/
  | respond (valid : String → Bool) (res : Except Error BlobResponse)
  /-- `read_range` from the answer to its request on -/
  | done

/-- The range that a task reads from the remote. -/
def readingRange : Instance.TaskState → Option Range
  | .running _ _ _ (.holding range .reading) => some range
  | _ => none

/-- What `registry_get` has returned to `read_range`. -/
def ReadTask.result (x : ReadTask) : Option (Except Error Oci.RangeResponse) :=
  match x.get with
  | .returned (.error err) => some (.error err)
  | .returned (.ok _) => x.response.map .ok
  | _ => none

variable (inst : Instance) (backend : OciRemoteBackend)

/-- A step of `ensure_range`. The future of a read that is under way is dropped in it. -/
def ensureStep (s : Shared) (x : ReadTask) (e : Instance.Event) : Option (Shared × ReadTask) :=
  (inst.step s.ensure x.ensure e).map fun p =>
    ({ s with ensure := p.1 }, { x with ensure := p.2, get := .idle })

/-- A step of `registry_get`. -/
def getStep (s : Shared) (x : ReadTask) (e : Oci.Event) : Option (Shared × ReadTask) :=
  (Oci.step s.auth x.get e).map fun p => ({ s with auth := p.1 }, { x with get := p.2 })

/-- One step of a task. -/
def step (s : Shared) (x : ReadTask) : Event → Option (Shared × ReadTask)
  | .ensure (.reply _) => none
  | .ensure e => ensureStep inst s x e
  | .call =>
    match readingRange x.ensure, x.get with
    | some range, .idle =>
      match Oci.rangeRequest range.offset range.len with
      | .error res => ensureStep inst s x (.reply res)
      | .ok header => some (s, { x with get := .called (backend.getArgs header) })
    | _, _ => none
  | .token (.call _) | .token (.response _ _) | .token .drop => none
  | .token e => getStep s x e
  | .respond valid res =>
    getStep s { x with response := res.toOption.map BlobResponse.range }
      (.response valid (res.map BlobResponse.response))
  | .done =>
    match readingRange x.ensure, x.result with
    | some range, some res => ensureStep inst s x (.reply (Oci.rangeReceived range.len res))
    | _, _ => none

/-- The task system of the calls on one instance with their requests. -/
def reads : TaskSystem Shared ReadTask Event := ⟨step inst backend⟩

/-- The registry has the blob of the instance at the URL of the backend. -/
def Registry (blob : ℕ → UInt8) (x : ReadTask) : Event → Prop
  | .respond _ (.ok res) => ∀ request, x.get.request = some request →
      Oci.AnswersRange backend.blobUrl blob inst.blobSize request res.range
  | _ => True

/-- The step of `ensure_range` that a step is, if any. -/
def ensureEvent (x : ReadTask) : Event → Option Instance.Event
  | .ensure e => some e
  | .call =>
    match readingRange x.ensure with
    | none => none
    | some range =>
      match Oci.rangeRequest range.offset range.len with
      | .error res => some (.reply res)
      | .ok _ => none
  | .token _ | .respond _ _ => none
  | .done =>
    match readingRange x.ensure, x.result with
    | some range, some res => some (.reply (Oci.rangeReceived range.len res))
    | _, _ => none

/-- What a task knows about its request: it is for the range of its guard, and the response to it
has the bytes of the range if it has any. -/
structure Asks (blob : ℕ → UInt8) (x : ReadTask) : Prop where
  shape : inst.TaskShape x.ensure
  idle : readingRange x.ensure = none → x.get = .idle
  args : ∀ range args, readingRange x.ensure = some range → x.get.args = some args →
    args = backend.getArgs (Oci.rangeHeader range.offset (range.offset + range.len - 1))
  response : ∀ range r res, readingRange x.ensure = some range → x.get = .returned (.ok r) →
    x.response = some res →
      Oci.RangeAnswer blob inst.blobSize range.offset (range.offset + range.len - 1) res

variable {inst backend} {blob : ℕ → UInt8}

/-! ### What a step can do -/

/-- The effects of a step. -/
inductive Effect (inst : Instance) (backend : OciRemoteBackend) (s : Shared) (x : ReadTask) :
    Event → Shared → ReadTask → Prop
  | ensure {e : Instance.Event} {s' : Instance.Shared} {l' : Instance.TaskState}
      (he : ∀ res, e ≠ .reply res) (h : inst.step s.ensure x.ensure e = some (s', l')) :
      Effect inst backend s x (.ensure e) { s with ensure := s' }
        { x with ensure := l', get := .idle }
  | called {range : Range} {header : String} (hrange : readingRange x.ensure = some range)
      (hheader : Oci.rangeRequest range.offset range.len = .ok header) :
      Effect inst backend s x .call s { x with get := .called (backend.getArgs header) }
  | answered {range : Range} {res : Except Error (List UInt8)} {s' : Instance.Shared}
      {l' : Instance.TaskState} (hrange : readingRange x.ensure = some range)
      (hres : Oci.rangeRequest range.offset range.len = .error res)
      (h : inst.step s.ensure x.ensure (.reply res) = some (s', l')) :
      Effect inst backend s x .call { s with ensure := s' } { x with ensure := l', get := .idle }
  | token {e : Oci.Event} {a' : Oci.RegistryAuthState} {g' : Oci.GetState} (he : e.IsToken)
      (h : Oci.step s.auth x.get e = some (a', g')) :
      Effect inst backend s x (.token e) { s with auth := a' } { x with get := g' }
  | respond {valid : String → Bool} {res : Except Error BlobResponse} {a' : Oci.RegistryAuthState}
      {g' : Oci.GetState} (h : Oci.step s.auth x.get
        (.response valid (res.map BlobResponse.response)) = some (a', g')) :
      Effect inst backend s x (.respond valid res) { s with auth := a' }
        { x with get := g', response := res.toOption.map BlobResponse.range }
  | done {range : Range} {res : Except Error Oci.RangeResponse} {s' : Instance.Shared}
      {l' : Instance.TaskState} (hrange : readingRange x.ensure = some range)
      (hres : x.result = some res)
      (h : inst.step s.ensure x.ensure (.reply (Oci.rangeReceived range.len res)) = some (s', l')) :
      Effect inst backend s x .done { s with ensure := s' } { x with ensure := l', get := .idle }

theorem ensureStep_eq_some {s s' : Shared} {x x' : ReadTask} {e : Instance.Event}
    (h : ensureStep inst s x e = some (s', x')) :
    ∃ s₁ l₁, inst.step s.ensure x.ensure e = some (s₁, l₁) ∧ s' = { s with ensure := s₁ } ∧
      x' = { x with ensure := l₁, get := .idle } := by
  obtain ⟨⟨s₁, l₁⟩, hstep, heq⟩ := Option.map_eq_some_iff.mp h
  obtain ⟨rfl, rfl⟩ := Prod.mk.inj heq
  exact ⟨s₁, l₁, hstep, rfl, rfl⟩

theorem getStep_eq_some {s s' : Shared} {x x' : ReadTask} {e : Oci.Event}
    (h : getStep s x e = some (s', x')) :
    ∃ a₁ g₁, Oci.step s.auth x.get e = some (a₁, g₁) ∧ s' = { s with auth := a₁ } ∧
      x' = { x with get := g₁ } := by
  obtain ⟨⟨a₁, g₁⟩, hstep, heq⟩ := Option.map_eq_some_iff.mp h
  obtain ⟨rfl, rfl⟩ := Prod.mk.inj heq
  exact ⟨a₁, g₁, hstep, rfl, rfl⟩

/-- **Step inversion.** Every step is one of the effects. -/
theorem Effect.of_step {s s' : Shared} {x x' : ReadTask} {e : Event}
    (h : step inst backend s x e = some (s', x')) : Effect inst backend s x e s' x' := by
  unfold step at h
  split at h
  · exact absurd h (by simp)
  · rename_i e he
    obtain ⟨s₁, l₁, hstep, rfl, rfl⟩ := ensureStep_eq_some h
    exact .ensure he hstep
  · split at h
    · rename_i range hrange hget
      split at h
      · rename_i res hres
        obtain ⟨s₁, l₁, hstep, rfl, rfl⟩ := ensureStep_eq_some h
        exact .answered hrange hres hstep
      · rename_i header hheader
        obtain ⟨rfl, rfl⟩ := Prod.mk.inj (Option.some.inj h)
        exact .called hrange hheader
    · exact absurd h (by simp)
  · exact absurd h (by simp)
  · exact absurd h (by simp)
  · exact absurd h (by simp)
  · rename_i e hcall hresponse hdrop
    obtain ⟨a₁, g₁, hstep, rfl, rfl⟩ := getStep_eq_some h
    refine .token ?_ hstep
    cases e with
    | call args => exact absurd rfl (hcall args)
    | response valid res => exact absurd rfl (hresponse valid res)
    | drop => exact absurd rfl hdrop
    | lookup | check | token | store => trivial
  · obtain ⟨a₁, g₁, hstep, rfl, rfl⟩ := getStep_eq_some h
    exact .respond hstep
  · split at h
    · rename_i range res hrange hres
      obtain ⟨s₁, l₁, hstep, rfl, rfl⟩ := ensureStep_eq_some h
      exact .done hrange hres hstep
    · exact absurd h (by simp)

/-! ### The request of a task -/

theorem readingRange_eq_some {l : Instance.TaskState} {range : Range}
    (h : readingRange l = some range) :
    ∃ call offset len, l = .running call offset len (.holding range .reading) := by
  unfold readingRange at h
  split at h
  · obtain rfl := Option.some.inj h
    exact ⟨_, _, _, rfl⟩
  · exact absurd h (by simp)

theorem held_of_reading {l : Instance.TaskState} {range : Range} (h : readingRange l = some range) :
    Instance.heldRange l = some range := by
  obtain ⟨call, offset, len, rfl⟩ := readingRange_eq_some h
  rfl

theorem reading_bounds {l : Instance.TaskState} {range : Range} (hl : inst.TaskShape l)
    (h : readingRange l = some range) : 0 < range.len ∧ range.offset + range.len ≤ inst.blobSize ∧
      range.offset + range.len < U64.size := by
  obtain ⟨call, offset, len, rfl⟩ := readingRange_eq_some h
  exact hl.2.1.bounds

theorem rangeRequest_reading {l : Instance.TaskState} {range : Range} (hl : inst.TaskShape l)
    (h : readingRange l = some range) : Oci.rangeRequest range.offset range.len =
      .ok (Oci.rangeHeader range.offset (range.offset + range.len - 1)) := by
  obtain ⟨hlen, -, hlt⟩ := reading_bounds hl h
  exact Oci.rangeRequest_ok hlen hlt

theorem asks_of_idle {x : ReadTask} (hshape : inst.TaskShape x.ensure) (hget : x.get = .idle) :
    Asks inst backend blob x where
  shape := hshape
  idle _ := hget
  args range args _ hargs := by
    rw [hget] at hargs
    exact absurd hargs (by simp [Oci.GetState.args])
  response range r res _ hr := by
    rw [hget] at hr
    exact absurd hr (by simp)

/-- **A request asks for the range of the read** of its task, of the blob. -/
theorem Asks.request {x : ReadTask} (h : Asks inst backend blob x) {request : Oci.Request}
    (hrequest : x.get.request = some request) :
    ∃ range, readingRange x.ensure = some range ∧ request.url = backend.blobUrl ∧
      request.range = some (Oci.rangeHeader range.offset (range.offset + range.len - 1)) := by
  obtain ⟨args, token, hargs, rfl⟩ := Oci.request_of_args hrequest
  cases hrange : readingRange x.ensure with
  | none =>
    rw [h.idle hrange] at hargs
    exact absurd hargs (by simp [Oci.GetState.args])
  | some range =>
    obtain rfl := h.args range args hrange hargs
    exact ⟨range, rfl, rfl, rfl⟩

/-- The server reads the header of a request as the range of the read. -/
theorem parseByteRange_reading {l : Instance.TaskState} {range : Range} (hl : inst.TaskShape l)
    (h : readingRange l = some range) :
    Oci.parseByteRange (Oci.rangeHeader range.offset (range.offset + range.len - 1)) =
      some (range.offset, range.offset + range.len - 1) := by
  obtain ⟨hlen, -, hlt⟩ := reading_bounds hl h
  exact Oci.parseByteRange_rangeHeader (by omega)

theorem Asks.positions {x : ReadTask} (h : Asks inst backend blob x) {request : Oci.Request}
    {range : Range} (hrange : readingRange x.ensure = some range)
    (hheader : request.range =
      some (Oci.rangeHeader range.offset (range.offset + range.len - 1))) :
    request.positions = range.positions := by
  obtain ⟨hlen, -, -⟩ := reading_bounds h.shape hrange
  have hparse := parseByteRange_reading h.shape hrange
  ext p
  constructor
  · rintro ⟨header, first, last, hsent, hread, hfirst, hlast⟩
    obtain rfl := Option.some.inj (hheader.symm.trans hsent)
    obtain ⟨rfl, rfl⟩ := Prod.mk.inj (Option.some.inj (hparse.symm.trans hread))
    exact ⟨hfirst, by omega⟩
  · rintro ⟨hfirst, hlast⟩
    exact ⟨_, _, _, hheader, hparse, hfirst, by omega⟩

/-- **The step lemma.** On the registry, a step keeps what its task knows about its request. -/
theorem asks_step {s s' : Shared} {x x' : ReadTask} {e : Event} (hx : Asks inst backend blob x)
    (hok : Registry inst backend blob x e) (h : step inst backend s x e = some (s', x')) :
    Asks inst backend blob x' := by
  cases Effect.of_step h with
  | ensure he hstep => exact asks_of_idle (Instance.taskShape_step hx.shape hstep) rfl
  | answered hrange hres hstep => exact asks_of_idle (Instance.taskShape_step hx.shape hstep) rfl
  | done hrange hres hstep => exact asks_of_idle (Instance.taskShape_step hx.shape hstep) rfl
  | @called range header hrange hheader =>
    obtain rfl := Except.ok.inj ((rangeRequest_reading hx.shape hrange).symm.trans hheader)
    refine ⟨hx.shape, fun hnone => ?_, fun range' args hrange' hargs => ?_, fun _ _ _ _ hr => ?_⟩
    · exact absurd (hrange.symm.trans hnone) (by simp)
    · obtain rfl := Option.some.inj (hrange.symm.trans hrange')
      exact (Option.some.inj hargs).symm
    · exact absurd hr (by simp)
  | @token e a' g' he hstep =>
    obtain ⟨hargs, hreturned⟩ := Oci.token_step he hstep
    refine ⟨hx.shape, fun hnone => ?_, fun range args hrange h => hx.args range args hrange
      (hargs args h), fun _ r _ _ hr => absurd hr (hreturned r)⟩
    -- nothing is sent outside a read
    rw [hx.idle hnone] at hstep
    cases Oci.Effect.of_step hstep with
    | call => exact he.elim
    | drop _ hrunning => exact absurd hrunning (by simp [Oci.GetState.running])
  | @respond valid res a' g' hstep =>
    obtain ⟨-, hsome, hargs, hreturned⟩ := Oci.response_step hstep
    obtain ⟨request, hrequest⟩ := Option.isSome_iff_exists.mp hsome
    obtain ⟨range, hrange, hurl, hheader⟩ := hx.request hrequest
    refine ⟨hx.shape, fun hnone => absurd (hrange.symm.trans hnone) (by simp),
      fun range' args hrange' h => hx.args range' args hrange' (hargs args h),
      fun range' r seen hrange' hr hseen => ?_⟩
    obtain rfl := Option.some.inj (hrange.symm.trans hrange')
    have hresponse := hreturned r hr
    cases res with
    | error err => exact absurd hresponse (by simp [Except.map])
    | ok res =>
      obtain rfl := Option.some.inj hseen
      obtain ⟨hlen, hle, -⟩ := reading_bounds hx.shape hrange
      exact hok request hrequest _ _ _ hurl hheader (parseByteRange_reading hx.shape hrange)
        (by omega)

/-! ### An honest remote -/

/-- What `read_range` returns is the range of the read, if it has its length. -/
theorem Asks.agrees {x : ReadTask} (h : Asks inst backend blob x) {range : Range}
    {res : Except Error Oci.RangeResponse} (hrange : readingRange x.ensure = some range)
    (hres : x.result = some res) {bytes : List UInt8}
    (hreceived : Oci.rangeReceived range.len res = .ok bytes) (hbytes : bytes.length = range.len) :
    SparseFile.Agrees blob range.offset bytes := by
  obtain ⟨-, hle, -⟩ := reading_bounds h.shape hrange
  unfold ReadTask.result at hres
  split at hres
  · obtain rfl := Option.some.inj hres
    exact absurd hreceived (by simp [Oci.rangeReceived])
  · rename_i r hget
    obtain ⟨seen, hseen, rfl⟩ := Option.map_eq_some_iff.mp hres
    exact Oci.rangeReceived_agrees (h.response range r seen hrange hget hseen) hle hreceived hbytes
  · exact absurd hres (by simp)

theorem honest_of_agrees {l : Instance.TaskState} {e : Instance.Event}
    (h : ∀ range bytes, readingRange l = some range → e = .reply (.ok bytes) →
      bytes.length = range.len → SparseFile.Agrees blob range.offset bytes) :
    Instance.Honest blob l e := by
  unfold Instance.Honest
  split
  · exact h _ _ rfl rfl
  · trivial

variable (inst backend blob) in
/-- **The calls with their requests do what the calls do** on an honest remote. -/
def ensures : TaskSystem.Simulation (reads inst backend) (Registry inst backend blob) inst.tasks
    (Instance.Honest blob) (Asks inst backend blob) where
  shared s := s.ensure
  task x := x.ensure
  event x e := ensureEvent x e
  keeps _ _ _ _ _ hx hok hstep := asks_step hx hok hstep
  stutters s x e s' x' hx _ hstep hevent := by
    cases Effect.of_step hstep with
    | called | token | respond => exact ⟨rfl, rfl⟩
    | ensure => exact absurd hevent (by simp [ensureEvent])
    | answered hrange hres => exact absurd hevent (by simp [ensureEvent, hrange, hres])
    | done hrange hres => exact absurd hevent (by simp [ensureEvent, hrange, hres])
  steps s x e s' x' e' hx _ hstep hevent := by
    cases Effect.of_step hstep with
    | token | respond => exact absurd hevent (by simp [ensureEvent])
    | called hrange hheader => exact absurd hevent (by simp [ensureEvent, hrange, hheader])
    | ensure he hensure =>
      obtain rfl := Option.some.inj hevent
      exact ⟨honest_of_agrees fun _ _ _ hreply => absurd hreply (he _), hensure⟩
    | answered hrange hres =>
      exact absurd ((rangeRequest_reading hx.shape hrange).symm.trans hres) (by simp)
    | @done range res _ _ hrange hres hensure =>
      have hreply : e' = .reply (Oci.rangeReceived range.len res) := by
        simpa only [ensureEvent, hrange, hres, Option.some.injEq, eq_comm] using hevent
      obtain rfl := hreply
      refine ⟨honest_of_agrees fun range' bytes hrange' hbytes hlength => ?_, hensure⟩
      obtain rfl := Option.some.inj (hrange.symm.trans hrange')
      exact hx.agrees hrange hres (Instance.Event.reply.inj hbytes) hlength

section Runs

variable {τ : Type*} [DecidableEq τ] {c₀ c : TaskSystem.Config Shared ReadTask τ}
  {ls : List (τ × Event)}

/-- **Fetching from a registry is sound.** Any number of calls run on one instance, each with the
requests and the tokens of its read, against a registry that reads the `Range` header of a request
and answers with the bytes it asks for, a part of them, the whole blob, a challenge or any other
failure. In every state that they reach, every slot that is ready in memory or in the bitmap file
has its range in the target, and what `ensure_range` has returned success for is in the target then
and in every later state. Every request is for the blob, with a header that is read as the range of
the guard of its task, and two requests that are awaited at the same time ask for no byte in
common. -/
theorem registry_reads_sound (hne : inst.target ≠ inst.rangeMap.file)
    (hidle : ∀ t, (c₀.task t).ensure = .idle ∧ (c₀.task t).get = .idle)
    (hempty : c₀.shared.ensure.inflight = []) (hs : inst.SlotsSound blob c₀.shared.ensure)
    (hrun : (reads inst backend).Run (Registry inst backend blob) c₀ ls c) :
    (inst.SlotsSound blob c.shared.ensure ∧
      ∀ t offset len, Instance.EnsureReturnedOk offset len (c.task t).ensure →
        ∀ ls' c', (reads inst backend).Run (Registry inst backend blob) c ls' c' →
          (c'.shared.ensure.disk inst.target).Holds blob offset (offset + len)) ∧
    (∀ t request, (c.task t).get.request = some request → request.url = backend.blobUrl ∧
      ∃ range, Instance.heldRange (c.task t).ensure = some range ∧
        request.positions = range.positions) ∧
    ∀ t u request request', t ≠ u → (c.task t).get.request = some request →
      (c.task u).get.request = some request' → Disjoint request.positions request'.positions := by
  have hasks₀ (t : τ) : Asks inst backend blob (c₀.task t) := by
    refine asks_of_idle ?_ (hidle t).2
    rw [(hidle t).1]
    trivial
  obtain ⟨hasks, ls₁, hensure⟩ := (ensures inst backend blob).run hasks₀ hrun
  have hl₀ (t : τ) : inst.TaskShape (c₀.task t).ensure ∧
      inst.TaskSound blob c₀.shared.ensure.disk (c₀.task t).ensure := by
    rw [(hidle t).1]
    exact ⟨trivial, trivial⟩
  obtain ⟨⟨hsound, htasks⟩, -⟩ := Instance.sound_run hne hs hl₀ hensure
  have hexclusive := Instance.exclusive_run (fun t => (hidle t).1) hempty hensure
  have hrequest (t : τ) (request : Oci.Request) (h : (c.task t).get.request = some request) :
      request.url = backend.blobUrl ∧
        ∃ range, Instance.heldRange (c.task t).ensure = some range ∧
          request.positions = range.positions := by
    obtain ⟨range, hrange, hurl, hheader⟩ := (hasks t).request h
    exact ⟨hurl, range, held_of_reading hrange, (hasks t).positions hrange hheader⟩
  refine ⟨⟨hsound, fun t offset len hret ls' c' hrun' => ?_⟩, hrequest, ?_⟩
  · obtain ⟨-, ls₂, hensure'⟩ := (ensures inst backend blob).run hasks hrun'
    have hkeep := (Instance.sound_run hne hsound htasks hensure').2
    exact hkeep _ _ ((htasks t).2.ensureReturnedOk hret)
  · intro t u request request' htu h h'
    obtain ⟨-, range, hheld, hpositions⟩ := hrequest t request h
    obtain ⟨-, range', hheld', hpositions'⟩ := hrequest u request' h'
    rw [hpositions, hpositions']
    exact hexclusive.held_disjoint htu hheld hheld'

end Runs

/-! ### One read with a challenge -/

def smallBackend : OciRemoteBackend :=
  { blobUrl := "https://a/v2/r/blobs/sha256:abc", auth := none }

/-- An empty cache of `smallInstance`, no tokens, and tasks that have not called yet. -/
def readsStart : TaskSystem.Config Shared ReadTask ℕ where
  shared := { ensure := Instance.smallStart.shared, auth := .default }
  task _ := { ensure := .idle, get := .idle, response := none }

/-- The registry asks for a token. -/
def challengeResponse : BlobResponse where
  response := Oci.unauthorized
  statusText := "401 Unauthorized"
  bytes := .ok []

/-- The registry answers with the three bytes of the blob. -/
def contentResponse : BlobResponse where
  response := ⟨206, none⟩
  statusText := "206 Partial Content"
  bytes := .ok [7, 7, 7]

/-- A call up to the challenge. -/
def untilChallenge : List Event :=
  [.ensure (.call (.ensureRange 1 1)), .ensure .check, .ensure .reserve, .ensure .recheck, .call,
    .token .lookup, .respond (fun _ => false) (.ok challengeResponse)]

/-- A token is fetched, the request is sent once more, and the call goes on to its end. -/
def afterChallenge : List Event :=
  [.token (.check none), .token (.token (.ok ⟨200, "200 OK", .ok ⟨some "t", none⟩⟩)), .token .store,
    .respond (fun _ => true) (.ok contentResponse), .done, .ensure (.wrote (.ok 3)),
    .ensure (.marked (.ok 1)), .ensure .fill, .ensure .release]

theorem registry_challengeResponse (x : ReadTask) (valid : String → Bool) :
    Registry smallInstance smallBackend (fun _ => 7) x
      (.respond valid (.ok challengeResponse)) := by
  intro request _ header first last _ _ _ _
  exact .other "401 Unauthorized" _ (by decide)

theorem registry_contentResponse {x : ReadTask} (valid : String → Bool)
    (h : ∀ request, x.get.request = some request → request.range = some (Oci.rangeHeader 0 2)) :
    Registry smallInstance smallBackend (fun _ => 7) x (.respond valid (.ok contentResponse)) := by
  intro request hrequest header first last _ hheader hparse _
  obtain rfl := Option.some.inj ((h request hrequest).symm.trans hheader)
  have hread := Oci.parseByteRange_rangeHeader (show 0 ≤ 2 by decide)
  obtain ⟨rfl, rfl⟩ := Prod.mk.inj (Option.some.inj (hread.symm.trans hparse))
  exact .partialContent (n := 3) "206 Partial Content" (by decide)

/-- A read of `smallInstance` that is answered with a challenge first. -/
theorem registry_reads_sound_smallInstance : ∃ ls c,
    (reads smallInstance smallBackend).Run
      (Registry smallInstance smallBackend fun _ => 7) readsStart ls c ∧
    Instance.EnsureReturnedOk 1 1 (c.task 0).ensure ∧
    (c.shared.ensure.disk smallInstance.target).Holds (fun _ => 7) 1 2 := by
  have hsound : smallInstance.SlotsSound (fun _ => 7) readsStart.shared.ensure := by
    refine ⟨rfl, fun k hk => absurd ?_ hk, fun k hk => absurd rfl hk⟩
    cases k <;> rfl
  let args : Oci.GetArgs := smallBackend.getArgs (Oci.rangeHeader 0 2)
  let reading : Instance.TaskState := .running (.ensureRange 1 1) 1 1 (.holding ⟨0, 3⟩ .reading)
  obtain ⟨s, hfirst⟩ : ∃ s, (reads smallInstance smallBackend).solo readsStart.shared
      (readsStart.task 0) untilChallenge =
      some (⟨s, .default⟩, ⟨reading, Oci.received args none (.ok Oci.unauthorized),
        some challengeResponse.range⟩) := ⟨_, rfl⟩
  have hok : (reads smallInstance smallBackend).SoloOk
      (Registry smallInstance smallBackend fun _ => 7) readsStart.shared (readsStart.task 0)
      untilChallenge :=
    .cons trivial rfl (.cons trivial rfl (.cons trivial rfl (.cons trivial rfl (.cons trivial rfl
      (.cons trivial rfl (.cons (registry_challengeResponse _ _) rfl trivial))))))
  rw [Oci.received_unauthorized] at hfirst
  obtain ⟨s', x', hsecond, hret⟩ : ∃ s' x',
      (reads smallInstance smallBackend).solo ⟨s, .default⟩
        ⟨reading, .challenged args none Oci.smallChallenge, some challengeResponse.range⟩
        afterChallenge = some (s', x') ∧
      Instance.EnsureReturnedOk 1 1 x'.ensure := ⟨_, _, rfl, rfl, rfl⟩
  have hok' : (reads smallInstance smallBackend).SoloOk
      (Registry smallInstance smallBackend fun _ => 7) ⟨s, .default⟩
      ⟨reading, .challenged args none Oci.smallChallenge, some challengeResponse.range⟩
      afterChallenge := by
    refine .cons trivial rfl (.cons trivial rfl (.cons trivial rfl
      (.cons (registry_contentResponse _ fun request hrequest => ?_) rfl (.cons trivial rfl
        (.cons trivial rfl (.cons trivial rfl (.cons trivial rfl (.cons trivial rfl trivial))))))))
    obtain rfl := Option.some.inj hrequest
    rfl
  have hrun := TaskSystem.Run.of_solo hok hfirst
  let middle : TaskSystem.Config Shared ReadTask ℕ := ⟨⟨s, .default⟩, Function.update
    readsStart.task 0 ⟨reading, .challenged args none Oci.smallChallenge,
      some challengeResponse.range⟩⟩
  have hrun' := TaskSystem.Run.of_solo (c := middle) (t := 0) hok' hsecond
  have hend := hrun.append hrun'
  have hret' : Instance.EnsureReturnedOk 1 1 (Function.update middle.task 0 x' 0).ensure := by
    rwa [Function.update_self]
  exact ⟨_, _, hend, hret', (registry_reads_sound (by decide) (fun _ => ⟨rfl, rfl⟩) rfl hsound
    hend).1.2 0 1 1 hret' [] _ .nil⟩

end RemoteReads

end Lazyd
