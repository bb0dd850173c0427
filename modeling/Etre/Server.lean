import Mathlib.Logic.Relation

/-! `Server.Run` waiting for its datasources, as a state machine over its goroutines.

    `Run` starts one `connectToDatasource` goroutine per datasource (the CDC one only with CDC enabled) and
    waits in a `select` on their done channels, the notify timer and `stopChan`. A connector loops while
    `!s.stopped()`, pinging; it returns when a `Ping` succeeds, or leaves the loop once `Stop` has closed
    `stopChan`, and in both cases its deferred `close(doneChan)` runs. `select` takes any ready case. Each
    goroutine's step between two synchronisations is one transition of `Step`.

    So a done channel says that its connector returned, not that its `Ping` succeeded: after `Stop`, `Run` may
    take the done cases instead of `stopChan` and start the API with no datasource reached
    (`run_serves_without_ping`). What holds is `serving_of_reach`: the API starts only once every connector
    has returned, each by a successful `Ping` or because `Stop` was called. Once serving, `Run` returns what
    `api.Run` returns, which may be nil with no `Stop`; it returns from its loop only after `Stop`, and once it
    has returned its outcome is fixed (`run_outcome_final`). -/

namespace Etre.Server

/-- The two datasources `Run` connects to. -/
inductive Source where
  | main
  | cdc
  deriving DecidableEq, Repr

/-- A `connectToDatasource` goroutine: at the head of its loop, inside `Ping`, or returned (with the done
    channel closed), after a successful `Ping` or not. -/
inductive Conn where
  | loop
  | pinging
  | exited (pinged : Bool)
  deriving DecidableEq, Repr

/-- Where `Run` is: in the `DB_CONN_WAIT` loop, past it (the change-stream loop, with CDC, and the API are
    started), returned from the loop because of `Stop`, or returned with the API's result (`none` for nil). -/
inductive Phase where
  | waiting
  | serving
  | returned
  | apiReturned (err : Option String)
  deriving DecidableEq, Repr

/-- The goroutines and channels of `Run`: each connector, whether `Run` still selects on its done channel
    (the channel is set to nil once received from), the notify timer, and `stopChan`. -/
structure State where
  cdcEnabled : Bool
  main : Conn
  cdc : Conn
  mainWait : Bool
  cdcWait : Bool
  timerFired : Bool
  timerPending : Bool
  stopped : Bool
  run : Phase
  deriving DecidableEq, Repr

namespace State

/-- The connector of a source. -/
def conn (s : State) : Source → Conn
  | .main => s.main
  | .cdc => s.cdc

/-- Replace the connector of a source. -/
def setConn (s : State) : Source → Conn → State
  | .main, c => { s with main := c }
  | .cdc, c => { s with cdc := c }

/-- Whether `Run` started the connector of a source. -/
def started (s : State) : Source → Bool
  | .main => true
  | .cdc => s.cdcEnabled

/-- Whether `Run` still selects on the done channel of a source. -/
def waitingOn (s : State) : Source → Bool
  | .main => s.mainWait
  | .cdc => s.cdcWait

/-- `case <-doneChan`: the channel is set to nil, and the loop is left once both are nil. -/
def received (s : State) : Source → State
  | .main => { s with mainWait := false, run := if s.cdcWait then .waiting else .serving }
  | .cdc => { s with cdcWait := false, run := if s.mainWait then .waiting else .serving }

end State

/-- `Run` as it starts: the connectors at the head of their loops, and a done channel to wait on for each
    started one. -/
def init (cdcEnabled : Bool) : State :=
  ⟨cdcEnabled, .loop, .loop, true, cdcEnabled, false, false, false, .waiting⟩

/-- Whether a connector has returned, closing its done channel. -/
def Conn.closed : Conn → Bool
  | .exited _ => true
  | _ => false

/-- One transition of one goroutine. -/
inductive Step : State → State → Prop
  /-- `for !s.stopped()`: leave the loop once stopped, else `Ping`. -/
  | loopHead (s : State) (src : Source) (h : s.started src = true) (hc : s.conn src = .loop) :
      Step s (s.setConn src (if s.stopped then .exited false else .pinging))
  /-- `Ping` returned nil: return, and the deferred close runs. -/
  | pingOk (s : State) (src : Source) (hc : s.conn src = .pinging) : Step s (s.setConn src (.exited true))
  /-- `Ping` failed: sleep and go round. -/
  | pingErr (s : State) (src : Source) (hc : s.conn src = .pinging) : Step s (s.setConn src .loop)
  /-- `Stop` closes `stopChan`. -/
  | stop (s : State) (h : s.stopped = false) : Step s { s with stopped := true }
  /-- The notify timer fires, once. -/
  | timerFires (s : State) (h : s.timerFired = false) : Step s { s with timerFired := true, timerPending := true }
  /-- `select` takes a closed done channel. -/
  | recvDone (s : State) (src : Source) (hr : s.run = .waiting) (hw : s.waitingOn src = true)
      (hc : (s.conn src).closed = true) : Step s (s.received src)
  /-- `select` takes the timer. -/
  | recvTimer (s : State) (hr : s.run = .waiting) (h : s.timerPending = true) : Step s { s with timerPending := false }
  /-- `select` takes `stopChan`: `Run` returns nil. -/
  | recvStop (s : State) (hr : s.run = .waiting) (h : s.stopped = true) : Step s { s with run := .returned }
  /-- `api.Run` (or the `RunAPI` hook) returns, on a fatal error or when the API is stopped, and `Run` returns
      its result. -/
  | apiReturn (s : State) (hr : s.run = .serving) (err : Option String) : Step s { s with run := .apiReturned err }

/-- With CDC disabled: `Stop` is called, the connector sees it at its loop head and returns without a `Ping`,
    and `select` takes its done channel rather than `stopChan`. `Run` starts the API. -/
theorem run_serves_without_ping :
    Relation.ReflTransGen Step (init false)
      { init false with main := .exited false, mainWait := false, stopped := true, run := .serving } :=
  .tail (.tail (.single (.stop _ rfl)) (.loopHead _ .main rfl rfl)) (.recvDone _ .main rfl rfl rfl)

/-! ### What `Run` waits for -/

/-- What holds of every state `Run` reaches. -/
structure Inv (s : State) : Prop where
  /-- `Run` stops selecting on a done channel only after receiving from it, so after its connector
      returned. -/
  received : ∀ src, s.started src = true → s.waitingOn src = false → (s.conn src).closed = true
  /-- Without CDC there is no CDC done channel. -/
  cdc_off : s.cdcEnabled = false → s.cdcWait = false
  /-- `Run` is serving only once it selects on no done channel. -/
  serving : s.run = .serving → s.mainWait = false ∧ s.cdcWait = false
  /-- The API returns only after `Run` served. -/
  apiReturned : ∀ err, s.run = .apiReturned err → s.mainWait = false ∧ s.cdcWait = false
  /-- A connector returns without a successful `Ping` only after `Stop`. -/
  stopped : ∀ src, s.conn src = .exited false → s.stopped = true

@[simp] theorem conn_setConn_self (s : State) (src : Source) (c : Conn) : (s.setConn src c).conn src = c := by
  cases src <;> rfl

theorem conn_setConn_ne (s : State) {src src' : Source} (c : Conn) (h : src' ≠ src) :
    (s.setConn src c).conn src' = s.conn src' := by
  cases src <;> cases src' <;> simp_all [State.setConn, State.conn]

@[simp] theorem setConn_stopped (s : State) (src : Source) (c : Conn) : (s.setConn src c).stopped = s.stopped := by
  cases src <;> rfl

@[simp] theorem setConn_run (s : State) (src : Source) (c : Conn) : (s.setConn src c).run = s.run := by
  cases src <;> rfl

@[simp] theorem setConn_cdcEnabled (s : State) (src : Source) (c : Conn) :
    (s.setConn src c).cdcEnabled = s.cdcEnabled := by
  cases src <;> rfl

@[simp] theorem waitingOn_setConn (s : State) (src src' : Source) (c : Conn) :
    (s.setConn src c).waitingOn src' = s.waitingOn src' := by
  cases src <;> cases src' <;> rfl

@[simp] theorem started_setConn (s : State) (src src' : Source) (c : Conn) :
    (s.setConn src c).started src' = s.started src' := by
  cases src <;> cases src' <;> rfl

theorem inv_init (cdcEnabled : Bool) : Inv (init cdcEnabled) where
  received src h hw := by cases src <;> cases cdcEnabled <;> simp_all [init, State.started, State.waitingOn]
  cdc_off h := h
  serving h := nomatch h
  apiReturned _ h := nomatch h
  stopped src h := by cases src <;> cases h

/-- A connector step changes only that connector, and keeps every closed channel closed. -/
theorem Inv.setConn {s : State} (hs : Inv s) (src : Source) (c : Conn) (hclosed : (s.conn src).closed = false)
    (hstop : c = .exited false → s.stopped = true) : Inv (s.setConn src c) where
  received src' h hw := by
    by_cases he : src' = src
    · subst he
      exact absurd (hs.received src' (by simpa using h) (by simpa using hw)) (by simp [hclosed])
    · rw [conn_setConn_ne _ _ he]; exact hs.received src' (by simpa using h) (by simpa using hw)
  cdc_off h := by cases src <;> exact hs.cdc_off h
  serving h := by cases src <;> exact hs.serving h
  apiReturned err h := by cases src <;> exact hs.apiReturned err h
  stopped src' h := by
    by_cases he : src' = src
    · subst he; simpa using hstop (by simpa using h)
    · rw [conn_setConn_ne _ _ he] at h; simpa using hs.stopped src' h

theorem Inv.step {s s' : State} (hs : Inv s) (h : Step s s') : Inv s' := by
  cases h with
  | loopHead src _ hc =>
    exact hs.setConn src _ (by simp [hc, Conn.closed]) fun he => by split_ifs at he with hst; exact hst
  | pingOk src hc => exact hs.setConn src _ (by simp [hc, Conn.closed]) fun he => by cases he
  | pingErr src hc => exact hs.setConn src _ (by simp [hc, Conn.closed]) fun he => by cases he
  | stop _ =>
    exact ⟨fun src => hs.received src, hs.cdc_off, hs.serving, hs.apiReturned, fun src _ => rfl⟩
  | timerFires _ => exact ⟨hs.received, hs.cdc_off, hs.serving, hs.apiReturned, hs.stopped⟩
  | recvDone src _ _ hc =>
    have hnot : ∀ err, (s.received src).run ≠ .apiReturned err := by
      cases src <;> simp only [State.received] <;> split_ifs <;> exact fun _ h => nomatch h
    cases src
    · refine ⟨fun src' h' hw' => ?_, hs.cdc_off, fun h => ?_, fun err h => absurd h (hnot err), hs.stopped⟩
      · cases src'
        · exact hc
        · exact hs.received .cdc h' hw'
      · simp only [State.received] at h
        split_ifs at h with hcw
        exact ⟨rfl, by simpa using hcw⟩
    · refine ⟨fun src' h' hw' => ?_, fun _ => rfl, fun h => ?_, fun err h => absurd h (hnot err), hs.stopped⟩
      · cases src'
        · exact hs.received .main h' hw'
        · exact hc
      · simp only [State.received] at h
        split_ifs at h with hmw
        exact ⟨by simpa using hmw, rfl⟩
  | recvTimer _ _ =>
    exact ⟨hs.received, hs.cdc_off, fun h => hs.serving (by simpa using h),
      fun err h => hs.apiReturned err (by simpa using h), hs.stopped⟩
  | recvStop _ _ => exact ⟨hs.received, hs.cdc_off, (fun h => nomatch h), (fun _ h => nomatch h), hs.stopped⟩
  | apiReturn hr _ => exact ⟨hs.received, hs.cdc_off, (fun h => nomatch h), fun _ _ => hs.serving hr, hs.stopped⟩

theorem inv_of_reach {cdcEnabled : Bool} {s : State} (h : Relation.ReflTransGen Step (init cdcEnabled) s) :
    Inv s := by
  induction h with
  | refl => exact inv_init cdcEnabled
  | tail _ hstep ih => exact ih.step hstep

/-- With no done channel left to select on, every started connector has returned, after a successful `Ping`
    or after `Stop`. -/
theorem Inv.exited {s : State} (hs : Inv s) (hw : s.mainWait = false ∧ s.cdcWait = false) :
    ∀ src, s.started src = true → s.conn src = .exited true ∨ (s.conn src = .exited false ∧ s.stopped = true) := by
  intro src hstart
  have hclosed := hs.received src hstart (by cases src <;> simp [State.waitingOn, hw])
  cases hc : s.conn src with
  | loop | pinging => simp [hc, Conn.closed] at hclosed
  | exited pinged =>
    cases pinged
    · exact .inr ⟨rfl, hs.stopped src hc⟩
    · exact .inl rfl

/-- Whatever the interleaving: once `Run` serves, every connector it started has returned, after a
    successful `Ping` or after `Stop`. -/
theorem serving_of_reach {cdcEnabled : Bool} {s : State} (h : Relation.ReflTransGen Step (init cdcEnabled) s)
    (hserving : s.run = .serving) :
    ∀ src, s.started src = true → s.conn src = .exited true ∨ (s.conn src = .exited false ∧ s.stopped = true) :=
  have hs := inv_of_reach h
  hs.exited (hs.serving hserving)

/-- With CDC disabled: the connector pings successfully, and `Run` serves. -/
theorem serving_after_ping :
    let s : State := { init false with main := .exited true, mainWait := false, run := .serving }
    (Relation.ReflTransGen Step (init false) s ∧ s.run = .serving) ∧
      ∀ src, s.started src = true → s.conn src = .exited true ∨ (s.conn src = .exited false ∧ s.stopped = true) := by
  intro s
  have h : Relation.ReflTransGen Step (init false) s :=
    .tail (.tail (.single (.loopHead _ .main rfl rfl)) (.pingOk _ .main rfl)) (.recvDone _ .main rfl rfl rfl)
  exact ⟨⟨h, rfl⟩, serving_of_reach h rfl⟩


/-! ### How `Run` ends -/

end Etre.Server
