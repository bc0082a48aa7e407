import ProtoActor.Actor.Pid
import ProtoActor.Transition.Run

/-!
# Grain calls and their configuration

`cluster/grain.go` and `cluster/default_context.go`.  A grain call (`DefaultContext.Request` or
`DefaultContext.RequestFuture`) runs with a `GrainCallConfig`: a retry count, a timeout, a retry
action and the sender context that sends the requests.  The configuration comes from
`DefaultGrainCallConfig`, which returns the package-level pointer `defaultGrainCallOptions`,
creating it from the calling cluster the first time; each `GrainCallOption` of the call is then
applied to it *in place*.

The process-wide state is that one pointer, `Option GrainCallConfig` here.  A call is a cluster
with an option list, and `callStep` is what a call does to the process.  The retry loops of
`Request` and `RequestFuture` are modelled turn by turn: the environment resolves each turn (the
deadline passed, the identity lookup found no PID, or the future answered), and the loop reads
nothing of the call but its configuration.  `RequestFuture` returns within its retries
(`requestFuture_returns`); `Request` does not when its futures complete empty, and then only the
deadline ends it (`empty_answers_retry_until_deadline`).
-/

namespace ProtoActor.Cluster

open ProtoActor.Actor

variable {σ α : Type}

/-- `GrainCallConfig`, over the type `σ` of sender contexts.  A `time.Duration` is an integer
number of nanoseconds. -/
structure GrainCallConfig (σ : Type) where
  retryCount : Int
  timeout : Int
  retryAction : Int → Int
  context : σ

/-- A `GrainCallOption` updates the configuration it is given in place. -/
def GrainCallOption (σ : Type) : Type :=
  GrainCallConfig σ → GrainCallConfig σ

set_option linter.dupNamespace false in
/-- What a grain call reads of its `Cluster`: `ActorSystem.Root` and
`Config.RequestTimeoutTime`. -/
structure Cluster (σ : Type) where
  root : σ
  requestTimeoutTime : Int

/-- The retry action of `NewGrainCallOptions`: count one more attempt (after sleeping
`i * i * 50` nanoseconds, a delay the model leaves out). -/
def defaultRetryAction (i : Int) : Int :=
  i + 1

/-- `NewGrainCallOptions`. -/
def newGrainCallOptions (cluster : Cluster σ) : GrainCallConfig σ where
  retryCount := 3
  context := cluster.root
  timeout := cluster.requestTimeoutTime
  retryAction := defaultRetryAction

/-- `WithTimeout`. -/
def withTimeout (timeout : Int) : GrainCallOption σ :=
  fun config => { config with timeout := timeout }

/-- `WithRetryCount`. -/
def withRetryCount (count : Int) : GrainCallOption σ :=
  fun config => { config with retryCount := count }

/-- `WithRetryAction`. -/
def withRetryAction (act : Int → Int) : GrainCallOption σ :=
  fun config => { config with retryAction := act }

/-- `WithContext`. -/
def withContext (ctx : σ) : GrainCallOption σ :=
  fun config => { config with context := ctx }

/-- `DefaultGrainCallConfig`: the package-level configuration if it exists, else a new one for
`cluster`.  The caller stores the result back, since it is the same pointer. -/
def defaultGrainCallConfig (defaultGrainCallOptions : Option (GrainCallConfig σ))
    (cluster : Cluster σ) : GrainCallConfig σ :=
  defaultGrainCallOptions.getD (newGrainCallOptions cluster)

/-- Apply the options of a call, in order (`for _, o := range opts { o(callConfig) }`). -/
def applyOptions (opts : List (GrainCallOption σ)) (config : GrainCallConfig σ) :
    GrainCallConfig σ :=
  opts.foldl (fun c o => o c) config

/-- The configuration a call runs with: the options applied to `DefaultGrainCallConfig`. -/
def callConfig (defaultGrainCallOptions : Option (GrainCallConfig σ)) (cluster : Cluster σ)
    (opts : List (GrainCallOption σ)) : GrainCallConfig σ :=
  applyOptions opts (defaultGrainCallConfig defaultGrainCallOptions cluster)

/-- A grain call: the cluster of its `DefaultContext` and its options. -/
structure GrainCall (σ : Type) where
  cluster : Cluster σ
  opts : List (GrainCallOption σ)

/-- What a call does to the package-level pointer: the options were applied to the object it
points to, so it now points to the call's configuration. -/
def callStep (defaultGrainCallOptions : Option (GrainCallConfig σ)) (call : GrainCall σ) :
    Option (GrainCallConfig σ) :=
  some (callConfig defaultGrainCallOptions call.cluster call.opts)

/-! ### The retry loops -/

/-- How the environment resolves one turn of a retry loop: the call's deadline has passed
(`ctx.Done()` is ready), `getPid` found no PID, or it found `pid` and the request got `answer`. -/
inductive Turn (β : Type)
  | expired
  | noPid
  | found (pid : PID) (answer : β)
  deriving DecidableEq, Repr

/-- The errors of a future's `Result()`, as `Request` tells them apart: `actor.ErrTimeout` and
`remote.ErrTimeout`, `actor.ErrDeadLetter` and `remote.ErrDeadLetter`, and any other. -/
inductive RequestError
  | timeout
  | deadLetter
  | other
  deriving DecidableEq, Repr

/-- The errors after which `Request` retries. -/
def RequestError.retried : RequestError → Bool
  | .timeout => true
  | .deadLetter => true
  | .other => false

/-- The errors a grain call returns: `"request failed: ..."` once the deadline has passed,
`"have reached max retries: <RetryCount>"`, or the future's own error. -/
inductive CallError
  | requestFailed
  | maxRetries (count : Int)
  | future (e : RequestError)
  deriving DecidableEq, Repr

/-- What a grain call does to the outside world: a `RequestFuture` from the configured sender
context with the configured timeout, or `PidCache.Remove(identity, kind)`. -/
inductive CallEffect (σ : Type)
  | requestFuture (context : σ) (pid : PID) (timeout : Int)
  | removePid
  deriving DecidableEq, Repr

/-- The variables of `Request`'s loop, with the effects so far. -/
structure RequestState (α σ : Type) where
  counter : Int
  resp : Option α
  err : Option CallError
  effects : List (CallEffect σ)
  deriving DecidableEq, Repr

/-- The loop variables before the first turn. -/
def RequestState.init : RequestState α σ :=
  ⟨0, none, none, []⟩

/-- One turn of `Request`'s `selectloop`: go round again (`inl`) or leave the loop (`inr`). -/
def requestTurn (config : GrainCallConfig σ) (s : RequestState α σ) :
    Turn (Option α × Option RequestError) → RequestState α σ ⊕ RequestState α σ
  | .expired => .inr { s with err := some .requestFailed }
  | .noPid =>
    if s.counter ≥ config.retryCount then .inr { s with err := some (.maxRetries config.retryCount) }
    else .inl { s with counter := config.retryAction s.counter }
  | .found pid (resp, err) =>
    if s.counter ≥ config.retryCount then .inr { s with err := some (.maxRetries config.retryCount) }
    else
      let s := { s with
        resp := resp
        err := err.map .future
        effects := s.effects ++ [.requestFuture config.context pid config.timeout] }
      if resp.isSome then .inr s
      else
        match err with
        -- neither a response nor an error: the `default` branch ends and the loop goes round
        | none => .inl s
        | some e =>
          if e.retried then
            .inl { s with
              counter := config.retryAction s.counter
              effects := s.effects ++ [.removePid] }
          else .inr s

/-- `DefaultContext.Request`: the call's configuration, then the retry loop over the turns
`turns`.  The package-level pointer points to the call's configuration afterwards, whatever the
loop does. -/
def request (defaultGrainCallOptions : Option (GrainCallConfig σ)) (call : GrainCall σ)
    (turns : List (Turn (Option α × Option RequestError))) :
    Option (RequestState α σ) × Option (GrainCallConfig σ) :=
  let config := callConfig defaultGrainCallOptions call.cluster call.opts
  (Transition.loop (requestTurn config) RequestState.init turns, some config)

/-- One turn of `RequestFuture`'s loop, whose only variable is `counter`: it returns the error,
or the request it sends once a PID is found. -/
def requestFutureTurn (config : GrainCallConfig σ) (counter : Int) :
    Turn Unit → Int ⊕ Except CallError (CallEffect σ)
  | .expired => .inr (.error .requestFailed)
  | .noPid =>
    if counter ≥ config.retryCount then .inr (.error (.maxRetries config.retryCount))
    else .inl (config.retryAction counter)
  | .found pid () =>
    if counter ≥ config.retryCount then .inr (.error (.maxRetries config.retryCount))
    else .inr (.ok (.requestFuture config.context pid config.timeout))

/-- `DefaultContext.RequestFuture`. -/
def requestFuture (defaultGrainCallOptions : Option (GrainCallConfig σ)) (call : GrainCall σ)
    (turns : List (Turn Unit)) :
    Option (Except CallError (CallEffect σ)) × Option (GrainCallConfig σ) :=
  let config := callConfig defaultGrainCallOptions call.cluster call.opts
  (Transition.loop (requestFutureTurn config) 0 turns, some config)

/-! ### The configuration a call runs with -/

@[simp] theorem applyOptions_nil (config : GrainCallConfig σ) : applyOptions [] config = config :=
  rfl

/-- An option that leaves the sender context alone. -/
def GrainCallOption.KeepsContext (o : GrainCallOption σ) : Prop :=
  ∀ config, (o config).context = config.context

/-! ### What the loops send -/

/-- An effect as the configuration `config` makes it: a request from its context with its
timeout, or a cache removal. -/
def CallEffect.SentWith (config : GrainCallConfig σ) : CallEffect σ → Prop
  | .requestFuture ctx _ t => ctx = config.context ∧ t = config.timeout
  | .removePid => True

/-- Two clusters of one process, each with its own root context and request timeout. -/
def clusterA : Cluster String :=
  ⟨"rootA", 5000000000⟩

def clusterB : Cluster String :=
  ⟨"rootB", 10000000000⟩

/-- The activation of the grain both calls reach. -/
def grainPID : PID :=
  ⟨"nonhost", "grain", 0⟩

/-- A call on `clusterA` with `WithTimeout(1ms)`, then a call on `clusterB` with no option: the
second one sends its request from `clusterA`'s root context with the first call's timeout, not
from `"rootB"` with `clusterB`'s 10 s. -/
theorem request_config_leaks_across_calls :
    (request (callStep none ⟨clusterA, [withTimeout 1000000]⟩) ⟨clusterB, []⟩
        [.found grainPID (some (1 : Nat), none)]).1 =
      some ⟨0, some 1, none, [.requestFuture "rootA" grainPID 1000000]⟩ := by
  decide

/-! ### `RequestFuture` returns -/

/-- With the default retry action, `RequestFuture` has returned after more turns than retries
left, whatever the environment does in each turn. -/
theorem requestFuture_returns (defaultGrainCallOptions : Option (GrainCallConfig σ))
    (call : GrainCall σ) (turns : List (Turn Unit))
    (hact : (callConfig defaultGrainCallOptions call.cluster call.opts).retryAction =
      defaultRetryAction)
    (hlen : (callConfig defaultGrainCallOptions call.cluster call.opts).retryCount.toNat <
      turns.length) :
    (requestFuture defaultGrainCallOptions call turns).1.isSome := by
  set config := callConfig defaultGrainCallOptions call.cluster call.opts
  -- the retries left, `RetryCount - counter`, fall by one on each turn that goes round
  have hdec : ∀ c t c', requestFutureTurn config c t = .inl c' →
      (config.retryCount - c').toNat < (config.retryCount - c).toNat := by
    intro c t c' ht
    cases t with
    | expired => simp [requestFutureTurn] at ht
    | noPid =>
      simp only [requestFutureTurn] at ht
      split_ifs at ht with hc
      cases ht
      simp only [hact, defaultRetryAction]
      omega
    | found pid u => simp only [requestFutureTurn] at ht; split_ifs at ht
  exact Transition.loop_isSome (fun c => (config.retryCount - c).toNat) hdec 0 turns
    (by simpa using hlen)

/-- A `RequestFuture` on `clusterA` with the default configuration, whose identity lookup finds
no PID four times: it has returned by then. -/
theorem requestFuture_returns_noPid :
    (callConfig none clusterA []).retryAction = defaultRetryAction ∧
      (callConfig none clusterA []).retryCount.toNat <
        (List.replicate 4 (Turn.noPid : Turn Unit)).length ∧
      (requestFuture none ⟨clusterA, []⟩ (List.replicate 4 (Turn.noPid : Turn Unit))).1.isSome := by
  have hact : (callConfig none clusterA []).retryAction = defaultRetryAction := rfl
  have hlen : (callConfig none clusterA []).retryCount.toNat <
      (List.replicate 4 (Turn.noPid : Turn Unit)).length := by decide
  exact ⟨hact, hlen, requestFuture_returns none ⟨clusterA, []⟩ _ hact hlen⟩

/-! ### `Request` goes round on an empty answer

A future that completes with neither a response nor an error (a `Respond(nil)`) takes
`Request` round its loop with the counter where it was, so the retries left never fall and only
the deadline ends the loop.
-/

/-- An empty answer within the retries left: one more `RequestFuture`, and round again. -/
theorem requestTurn_emptyAnswer {config : GrainCallConfig σ} {s : RequestState α σ} (pid : PID)
    (hc : s.counter < config.retryCount) :
    requestTurn config s (.found pid (none, none)) =
      .inl { s with
        resp := none
        err := none
        effects := s.effects ++ [.requestFuture config.context pid config.timeout] } := by
  have hlt : ¬ s.counter ≥ config.retryCount := Int.not_le.mpr hc
  simp [requestTurn, hlt]

/-- Empty answers one after another leave the counter as it was and add one `RequestFuture`
each. -/
theorem loop_requestTurn_emptyAnswers {config : GrainCallConfig σ} (pid : PID)
    (rest : List (Turn (Option α × Option RequestError))) :
    ∀ (n : ℕ) (counter : Int) (effects : List (CallEffect σ)), counter < config.retryCount →
      Transition.loop (requestTurn config) ⟨counter, none, none, effects⟩
          (List.replicate n (.found pid (none, none)) ++ rest) =
        Transition.loop (requestTurn config)
          ⟨counter, none, none,
            effects ++ List.replicate n (.requestFuture config.context pid config.timeout)⟩ rest
  | 0, counter, effects, _ => by simp
  | n + 1, counter, effects, hc => by
    have hturn : requestTurn config (⟨counter, none, none, effects⟩ : RequestState α σ)
        (.found pid (none, none)) =
          .inl ⟨counter, none, none, effects ++ [.requestFuture config.context pid config.timeout]⟩ :=
      requestTurn_emptyAnswer pid hc
    rw [List.replicate_succ, List.cons_append, Transition.loop_cons_of_inl hturn,
      loop_requestTurn_emptyAnswers pid rest n counter _ hc]
    simp [List.replicate_succ]

/-- A grain call with the default configuration whose requests all complete empty: after any
number `n` of them, `RetryCount` or more included, `Request` has not returned, and it returns
only when the deadline passes, with `"request failed"` and `n` requests sent. -/
theorem empty_answers_retry_until_deadline (cluster : Cluster σ) (pid : PID) (n : ℕ) :
    (request none ⟨cluster, []⟩
        (List.replicate n (.found pid ((none : Option α), none)))).1 = none ∧
      (request none ⟨cluster, []⟩
          (List.replicate n (.found pid ((none : Option α), none)) ++ [.expired])).1 =
        some ⟨0, none, some .requestFailed,
          List.replicate n (.requestFuture cluster.root pid cluster.requestTimeoutTime)⟩ := by
  -- the default configuration allows three retries, so the counter starts within them
  have hc : (0 : Int) < (callConfig none cluster []).retryCount := by
    simp [callConfig, defaultGrainCallConfig, newGrainCallOptions]
  have hrun := loop_requestTurn_emptyAnswers pid
    ([] : List (Turn (Option α × Option RequestError))) n 0 [] hc
  have hexp := loop_requestTurn_emptyAnswers pid
    ([.expired] : List (Turn (Option α × Option RequestError))) n 0 [] hc
  rw [List.append_nil] at hrun
  constructor
  · show Transition.loop (requestTurn (callConfig none cluster [])) ⟨0, none, none, []⟩ _ = none
    rw [hrun, Transition.loop_nil]
  · show Transition.loop (requestTurn (callConfig none cluster [])) ⟨0, none, none, []⟩ _ = _
    rw [hexp]
    simp [Transition.loop, requestTurn, callConfig, defaultGrainCallConfig, newGrainCallOptions]

end ProtoActor.Cluster
