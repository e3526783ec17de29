import Libtrp.Segment

/-!
# The router's machine

The functions of the router call out: to the packet interface, to the user, and to
the callbacks of timers.  While it waits for a callout to return, the router may be
called again.  So a function is cut where it calls out, and where it ends in a
change of the router's state; what is left of it is a task on a stack.  A step of
the machine is a call of the router, or runs the task on top; a callout on top is
run when it returns.

The timers are not walked inside a walk, which holds on to entries the inner one
frees.

## Main definitions

* `Task`, `Task.run` — a callout, or what is left of a function.
* `Api`, `Api.run` — the functions that are called from outside.
* `Config`, `Config.step` — the machine.

## References

`src/trip.c`, `src/trip.h`, `src/timerwheel.c` (`timerwheel_walk_with`),
`include/libtrp.h`.
-/

namespace Libtrp

open Lib

/-! ### Tasks -/

/-- `TRIP_SOCKET_TIMEOUT` -/
def tripSocketTimeout : ℤ := -1

/-- `TRIP_REMOVE` -/
def tripEventRemove : UInt32 := 0
/-- `TRIP_IN` -/
def tripEventIn : UInt32 := 1
/-- `TRIP_OUT` -/
def tripEventOut : UInt32 := 2
/-- `TRIP_INOUT` -/
def tripEventInout : UInt32 := 3

/-- What is on the stack: callouts, of which `read`, `resend` and `send` go on with
the code that is returned, and what is left of a function. -/
inductive Task
  /-- `packet->bind` -/
  | bind
  /-- `packet->unbind` -/
  | unbind
  /-- `packet->resolve` for the connection `c`. -/
  | resolve (c : Ptr) (key : ℤ)
  /-- `packet->read`, in the loop of `_trip_listen`. -/
  | read (fd : ℤ) (events : UInt32)
  /-- `packet->send` of the packet that was not sent before. -/
  | resend
  /-- `packet->send` of a packet of `c`, in the loop of `_trip_listen`. -/
  | send (c : Ptr) (connsent sent : UInt32)
  /-- `r->connection` -/
  | connection (c : Ptr)
  /-- `r->connection`, where `_trip_reject_connection` has made a connection for `err` only. -/
  | reject (err : Errno)
  /-- A timer of the user. -/
  | user
  /-- `_trip_set_state` -/
  | setState (state : TriprState)
  /-- `_trip_set_error` -/
  | setError (eval : Errno) (msg : Option String)
  /-- `_trip_set_state` for `UNBIND`, behind `unbind`. -/
  | unbindArm
  /-- `timerwheel_walk_with` and what `trip_timeout` does behind it. -/
  | walk (w : Walk Callback)
  /-- The callback of a timer. -/
  | callback (cb : Callback)
  /-- `trip_action` behind `trip_timeout`. -/
  | action (events : UInt32)
  /-- `_trip_listen` -/
  | listen (fd : ℤ) (events : UInt32)
  /-- `_trip_listen` behind the reading. -/
  | listenOut (events : UInt32)
  /-- The loop of `_trip_listen` over the connections, before the next one. -/
  | sendNext (sent : UInt32)
  /-- The loop of `_trip_listen` over the packets of `c`, before the next one. -/
  | pack (c : Ptr) (connsent sent : UInt32)
  /-- The same, behind `_tripc_send`. -/
  | packed (c : Ptr) (connsent sent : UInt32)
  /-- `trip_action` in `CLOSE`, behind `_trip_listen`. -/
  | closeDeadline
  /-- `_trip_send_immediately_cb` behind `_trip_listen`. -/
  | sendImmediately
  /-- `_trip_close_connection` behind `connection`. -/
  | closeConnection (c : Ptr)
  /-- The end of `trip_open_connection` when it fails. -/
  | freeConnection (c : Ptr)
  deriving DecidableEq, Repr

namespace Task

/-- Whether the router waits for something outside. -/
def isCallout : Task → Bool
  | bind | unbind | resolve _ _ | read _ _ | resend | send _ _ _ | connection _ | reject _
  | user => true
  | setState _ | setError _ _ | unbindArm | walk _ | callback _ | action _ | listen _ _
  | listenOut _ | sendNext _ | pack _ _ _ | packed _ _ _ | closeDeadline | sendImmediately
  | closeConnection _ | freeConnection _ => false

def isWalk : Task → Bool
  | walk _ => true
  | _ => false

end Task

/-! ### The state machine -/

/-- `_trip_timeout_cancel_state` -/
def tripTimeoutCancelState : TripM Unit := do
  let e ← fetch Router.statetimer
  match e with
  | some e => do
    tripCancelTimeoutM e
    store fun r => { r with statetimer := none }
  | none => return ()

/-- `r->statedeadline = triptime_deadline(ms)` -/
def tripSetDeadline (ms : ℤ) : TripM Unit := do
  let now ← triptimeNow
  store fun r => { r with statedeadline := triptimeDeadline now ms }

/-- `r->statetimer = _trip_set_timeout(r, ms, r, _trip_timeout_router_cb)` -/
def tripArmState (ms : ℤ) : TripM Unit := do
  let e ← tripSetTimeoutM ms .tripTimeoutRouter
  store fun r => { r with statetimer := e }

/-- `_trip_close`.  `tripc_close` does nothing, and giving `NULL` back does neither. -/
def tripClose (gracems : ℤ) : TripM Unit :=
  store fun r =>
    let r := if gracems = 0 then (connmapIterate r.conn).foldl Router.freeConn r else r
    { r with conn := connmapClear r.conn }

/-- The first switch of `_trip_set_state`. -/
def tripLeaveState : TriprState → TripM Unit
  | .BIND | .CLOSE | .UNBIND => do
    tripSetDeadline 0
    tripTimeoutCancelState
  | .START | .LISTEN | .END | .ERROR => return ()

/-- A call of the packet interface, which has to be there. -/
def callPacket (ts : List Task) : TripM (List Task) := do
  let packet ← fetch Router.packet
  if packet.isSome then return ts else Prog.stuck

/-- The second switch of `_trip_set_state`. -/
def tripEnterState : TriprState → TripM (List Task)
  | .START | .END => return []
  | .BIND => do
    let ms ← fetch Router.timeoutBind
    tripSetDeadline ms
    tripArmState ms
    callPacket [.bind]
  | .LISTEN => do
    store fun r => { r with statedeadline := 0 }
    return []
  | .CLOSE => do
    let ms ← fetch Router.timeoutClose
    tripClose ms
    tripSetDeadline ms
    tripArmState ms
    return []
  | .UNBIND => do
    tripClose 0
    callPacket [.unbind, .unbindArm]
  | .ERROR => do
    let packet ← fetch Router.packet
    let statetimer ← fetch Router.statetimer
    match packet with
    | none => Prog.stuck
    | some packet =>
      if packet.router && statetimer.isNone then
        let ms ← fetch Router.timeoutUnbind
        tripArmState ms
        return [.unbind]
      else return []

/-- What is left of entering `UNBIND` when the interface was told to unbind. -/
def tripUnbindArm : TripM (List Task) := do
  let ms ← fetch Router.timeoutUnbind
  tripSetDeadline ms
  tripArmState ms
  return []

/-- `_trip_set_state` -/
def tripSetState (state : TriprState) : TripM (List Task) := do
  let old ← fetch Router.state
  tripLeaveState old
  let state := if old = .ERROR then .ERROR else state
  store fun r => { r with state := state }
  tripEnterState state

/-- `_trip_set_error` -/
def tripSetError (eval : Errno) (msg : Option String) : TripM (List Task) := do
  let state ← fetch Router.state
  if state ≠ .ERROR then
    let alloc ← tripmAlloc
    store fun r =>
      { r with error := eval, errmsg := if alloc then some (msg.getD "") else none }
    return [.setState .ERROR]
  else return []

/-- `_trip_timeout_router_cb` -/
def tripTimeoutRouterCb : TripM (List Task) := do
  store fun r => { r with statetimer := none }
  let state ← fetch Router.state
  if state = .ERROR then return [] else return [.setError ETIME none]

/-! ### Listening -/

/-- A code of the packet interface that only says that it would block. -/
def wouldBlock (code : Errno) : Bool := code = EWOULDBLOCK || code = EAGAIN

/-- `_trip_listen` -/
def tripListen (fd : ℤ) (events : UInt32) : TripM (List Task) :=
  if tripEventIn &&& events ≠ 0 then callPacket [.read fd events] else return [.listenOut events]

/-- `_trip_listen`, when `read` has returned. -/
def tripListenRead (fd : ℤ) (events : UInt32) (code : Errno) : TripM (List Task) :=
  if code = 0 then callPacket [.read fd events]
  else if wouldBlock code then return [.listenOut events]
  else return [.setError code none]

/-- `_trip_listen` behind the reading. -/
def tripListenOut (events : UInt32) : TripM (List Task) :=
  if tripEventOut &&& events ≠ 0 then do
    let sendlen ← fetch Router.sendlen
    if sendlen ≠ 0 then callPacket [.resend] else return [.sendNext 0]
  else return []

/-- `_trip_listen`, when `send` of the packet that was not sent before has
returned. -/
def tripListenResend (code : Errno) : TripM (List Task) :=
  if code ≠ 0 then
    if wouldBlock code then return [.sendNext 0] else return [.setError code none]
  else do
    store fun r => { r with sendlen := 0 }
    return [.sendNext 1]

/-- `_trip_listen`, where it takes the next connection of the queue. -/
def tripSendNext (sent : UInt32) : TripM (List Task) := do
  let c ← Prog.take fun s =>
    let (c, qh) := sendqDq s.router.sendq s.router.heap
    (c, s.setRouter (s.router.setSendq qh))
  match c with
  | some c => return [.pack c 0 sent]
  | none => return []

/-- `_trip_listen`, where it is done with a connection. -/
def tripSendLimit (sent : UInt32) : TripM (List Task) := do
  let max ← fetch Router.maxPacketSendCount
  if sent > max then return [] else return [.sendNext sent]

/-- `_trip_listen`, before the next packet of `c`. -/
def tripSendPack (c : Ptr) (connsent sent : UInt32) : TripM (List Task) := do
  let max ← fetch Router.maxConnectionSendCount
  if connsent < max then
    let buflen ← fetch Router.buflen
    let len ← tripcSend c buflen
    store fun r => { r with sendlen := len }
    return [.packed c connsent sent]
  else
    store fun r => r.setSendq (sendqNq r.sendq r.heap c)
    tripSendLimit sent

/-- `_trip_listen`, when `_tripc_send` has returned. -/
def tripSendPacked (c : Ptr) (connsent sent : UInt32) : TripM (List Task) := do
  let sendlen ← fetch Router.sendlen
  if sendlen = NPOS then
    store fun r => { r with sendlen := 0 }
    return [.setError ECOMM none]
  else if sendlen ≠ 0 then callPacket [.send c connsent sent]
  else tripSendLimit sent

/-- `_trip_listen`, when `send` of a packet of `c` has returned. -/
def tripSendSent (c : Ptr) (connsent sent : UInt32) (code : Errno) : TripM (List Task) :=
  if code ≠ 0 then
    if wouldBlock code then do
      let x ← getConn c
      store fun r => { r with sendsrc := x.src }
      return []
    else return [.setError code none]
  else do
    store fun r => { r with sendlen := 0 }
    return [.pack c (connsent + 1) (sent + 1)]

/-- `_trip_send_immediately_cb` behind `_trip_listen`. -/
def tripSendImmediately : TripM (List Task) := do
  let has ← fetch fun r => sendqHas r.sendq
  if has then
    let _ ← tripSetTimeoutM 1 .tripSendImmediately
    return []
  else return []

/-! ### Connections -/

/-- `_trip_close_connection` -/
def tripCloseConnection (c : Ptr) : List Task := [.connection c, .closeConnection c]

/-- `_trip_close_connection`, when the user was told. -/
def tripCloseConnectionEnd (c : Ptr) : TripM (List Task) := do
  let x ← getConn c
  store fun r => { r with conn := (connmapDel r.conn r.heap x.self.id).2 }
  tripcDestroy c
  tripFreeConnection c
  return []

/-- `c->resolvekey = resolveq_put(&r->resolveq, c)` -/
def tripResolveqPut (c : Ptr) : TripM Unit := do
  let alloc ← tripmAlloc
  let key ← Prog.take fun s =>
    let (key, q) := resolveqPut s.router.resolveq c alloc
    (key, s.setRouter (s.router.setResolveq q))
  setConn c fun x => { x with resolvekey := key }

/-- `trip_open_connection`.  What the user gives is not modelled. -/
def tripOpenConnection : TripM (List Task) := do
  let allow ← fetch fun r => r.has triprFlagAllowOut
  if allow then
    let c ← tripNewConnection
    match c with
    | none => return [.reject ENOMEM]
    | some c => do
      let maxStreams ← fetch Router.maxStreams
      setConn c fun _ => tripcInit false maxStreams
      tripResolveqPut c
      let code ← connmapAddM c
      if code ≠ 0 then
        tripcSetError c EBUSY none
        return [.connection c, .freeConnection c]
      else
        let e ← tripSetTimeoutM 0 (.tripOpenConnectionAsync c)
        if e.isNone then
          tripcSetError c ENOMEM none
          return [.connection c, .freeConnection c]
        else return []
  else return [.reject EINVAL]

/-- `_trip_open_connection_async_cb` -/
def tripOpenConnectionAsync (c : Ptr) : TripM (List Task) := do
  tripcStart c
  let x ← getConn c
  callPacket [.resolve c x.resolvekey]

/-- `trip_resolve`.  A negative key reads before the array. -/
def tripResolve (key src : ℤ) (err : Errno) (emsg : Option String) : TripM Unit := do
  let q ← fetch Router.resolveq
  match resolveqPop q key with
  | none => Prog.stuck
  | some (c, q) => do
    store fun r => r.setResolveq q
    match c with
    | none => return ()
    | some c => tripResolvePopped c src err emsg

/-! ### Timeouts -/

/-- `trip_timeout` -/
def tripTimeout : TripM (List Task) := do
  let now ← triptimeNow
  let w ← fetch fun r => Walk.start now r.timers.wheel
  return [.walk w]

/-- One turn of the walk, or the end of `trip_timeout`. -/
def tripTimeoutWalk (w : Walk Callback) : TripM (List Task) := do
  let step ← fetch fun r => w.step r.timers.wheel
  match step with
  | some (w, wheel, cb) => do
    store fun r => r.setTimers { r.timers with wheel := wheel }
    return (cb.map Task.callback).toList ++ [.walk w]
  | none => do
    let now' ← triptimeNow
    store fun r => r.setTimers (tripTimeoutEnd w.now now' w.min r.timers)
    return []

/-- A callback with its data. -/
def tripCallback : Callback → TripM (List Task)
  | .tripSendImmediately => return [.listen tripSocketTimeout tripEventInout, .sendImmediately]
  | .tripTimeoutRouter => tripTimeoutRouterCb
  | .tripStopAsync => return [.setState .CLOSE]
  | .tripResolveDelaySuccess c => do
    tripcResolved c
    return []
  | .tripResolveDelayFailure c => return tripCloseConnection c
  | .tripOpenConnectionAsync c => tripOpenConnectionAsync c
  | .tripcTimeoutStateResolve c => do
    tripcTimeoutStateResolve c
    return tripCloseConnection c
  | .tripcTimeoutStateResend c => do
    let close ← tripcTimeoutStateResend c
    if close then return tripCloseConnection c else return []
  | .tripcTimeoutStateReadyPing c => do
    tripcTimeoutStateReadyPing c
    return []
  | .user => return [.user]

/-! ### Actions -/

/-- `_trip_fill_missing`: whether there is a packet interface. -/
def tripFillMissing : TripM Bool := do
  let packet ← fetch Router.packet
  if packet.isNone then
    let alloc ← tripmAlloc
    store (tripSetopt (.PACKET none (if alloc then some ⟨false⟩ else none)))
  else pure ()
  fetch fun r => r.packet.isSome

/-- `trip_action` in `START`. -/
def tripActionStart (fd : ℤ) : TripM (List Task) :=
  if fd ≠ tripSocketTimeout then
    return [.setError EINVAL (some "Invalid descriptor for state START.")]
  else do
    let there ← tripFillMissing
    if !there then
      return [.setError EINVAL (some "Unable to initialize default UDP packet interface.")]
    else
      let hooks ← fetch Router.hooks
      if !hooks then
        return [.setError EINVAL (some "Required method missing. See documentation.")]
      else
        store fun r => { r with packet := r.packet.map fun p => { p with router := true } }
        return [.setState .BIND]

/-- `trip_action` in `BIND`. -/
def tripActionBind (fd : ℤ) : TripM (List Task) :=
  if fd ≠ tripSocketTimeout then
    return [.setError EINVAL (some "Invalid descriptor for state BIND.")]
  else do
    let now ← triptimeNow
    let deadline ← fetch Router.statedeadline
    if now > deadline then return [.setError ETIME (some "Bind timeout.")]
    else
      tripArmState (triptimeTimeout deadline now)
      return []

/-- `trip_action` where it waits for the deadline of the state: past it the state
changes to `next`. -/
def tripActionDeadline (next : TriprState) : TripM (List Task) := do
  let now ← triptimeNow
  let deadline ← fetch Router.statedeadline
  if now ≥ deadline then return [.setState next] else return []

/-- The switch of `trip_action`. -/
def tripActionSwitch (fd : ℤ) (events : UInt32) : TripM (List Task) := do
  let state ← fetch Router.state
  match state with
  | .START => tripActionStart fd
  | .BIND => tripActionBind fd
  | .LISTEN => return [.listen fd events]
  | .CLOSE => return [.listen fd events, .closeDeadline]
  | .UNBIND => tripActionDeadline .END
  | .END | .ERROR => return []

/-- `trip_action` -/
def tripAction (fd : ℤ) (events : UInt32) : TripM (List Task) :=
  if fd = tripSocketTimeout then do
    let ts ← tripTimeout
    return ts ++ [.action events]
  else tripActionSwitch fd events

/-- `trip_action` behind `trip_timeout`, which returns the error of the router. -/
def tripActionTimeout (events : UInt32) : TripM (List Task) := do
  let error ← fetch Router.error
  if error ≠ 0 then return [] else tripActionSwitch tripSocketTimeout events

/-- `trip_start` -/
def tripStart : TripM (List Task) := do
  store fun r => if r.state = .END then { r with state := .START } else r
  let state ← fetch Router.state
  if state = .START then tripAction tripSocketTimeout 0 else return []

/-- `trip_stop` -/
def tripStop : TripM (List Task) := do
  let state ← fetch Router.state
  match state with
  | .START | .BIND | .LISTEN => do
    let e ← tripSetTimeoutM 0 .tripStopAsync
    if e.isNone then return [.setState .CLOSE] else return []
  | .CLOSE | .UNBIND | .END | .ERROR => return []

/-- `trip_ready` -/
def tripReady : TripM (List Task) := do
  let state ← fetch Router.state
  if state = .BIND then return [.setState .LISTEN] else return [.setState .ERROR]

/-- `trip_unready` -/
def tripUnready (err : Errno) : TripM (List Task) :=
  if err ≠ 0 then return [.setError err none] else return [.setState .END]

/-- `trip_watch`.  What is told to the poll loop is not modelled. -/
def tripWatch (fd : ℤ) (events : UInt32) : TripM (List Task) :=
  if fd = tripSocketTimeout then
    if events = tripEventRemove then do
      store fun r => r.setFlag triprFlagAlwaysReady false
      return []
    else do
      store fun r => r.setFlag triprFlagAlwaysReady true
      let has ← fetch fun r => sendqHas r.sendq
      if has then
        let _ ← tripSetTimeoutM 0 .tripSendImmediately
        return []
      else return []
  else return []

/-- `trip_cancel_timeout`.  A handle is one of a timer of the user. -/
def tripCancelUser (id : Ptr) : TripM (List Task) := do
  let own ← fetch fun r =>
    r.timers.wheel.entries.all fun e => e.id ≠ id || e.cb = some .user
  if own then
    tripCancelTimeoutM id
    return []
  else Prog.stuck

/-! ### The machine -/

/-- The functions that are called from outside. -/
inductive Api
  | start
  | action (fd : ℤ) (events : UInt32)
  | timeout
  | stop
  | openConnection
  | setopt (opt : TripRouterOpt)
  | setTimeout (ms : ℤ)
  | cancelTimeout (id : Ptr)
  /-- From the packet interface. -/
  | ready
  | unready (err : Errno)
  | error (eval : Errno) (msg : Option String)
  | seg (src : ℤ) (len : ℕ) (buf : Buf)
  | resolve (key src : ℤ) (err : Errno) (emsg : Option String)
  | watch (fd : ℤ) (events : UInt32)

/-- What a call does at once, and what is left of it. -/
def Api.run : Api → TripM (List Task)
  | .start => tripStart
  | .action fd events => tripAction fd events
  | .timeout => tripTimeout
  | .stop => tripStop
  | .openConnection => tripOpenConnection
  | .setopt opt => do
    store (tripSetopt opt)
    return []
  | .setTimeout ms => do
    let _ ← tripSetTimeoutM ms .user
    return []
  | .cancelTimeout id => tripCancelUser id
  | .ready => tripReady
  | .unready err => tripUnready err
  | .error eval msg => return [.setError eval msg]
  | .seg src len buf => do
    tripSeg src len buf
    return []
  | .resolve key src err emsg => do
    tripResolve key src err emsg
    return []
  | .watch fd events => tripWatch fd events

/-- What a task does, and what is left of it; a callout has returned `code`. -/
def Task.run (code : Errno) : Task → TripM (List Task)
  | .bind | .unbind | .resolve _ _ | .connection _ | .reject _ | .user => return []
  | .read fd events => tripListenRead fd events code
  | .resend => tripListenResend code
  | .send c connsent sent => tripSendSent c connsent sent code
  | .setState state => tripSetState state
  | .setError eval msg => tripSetError eval msg
  | .unbindArm => tripUnbindArm
  | .walk w => tripTimeoutWalk w
  | .callback cb => tripCallback cb
  | .action events => tripActionTimeout events
  | .listen fd events => tripListen fd events
  | .listenOut events => tripListenOut events
  | .sendNext sent => tripSendNext sent
  | .pack c connsent sent => tripSendPack c connsent sent
  | .packed c connsent sent => tripSendPacked c connsent sent
  | .closeDeadline => tripActionDeadline .UNBIND
  | .sendImmediately => Libtrp.tripSendImmediately
  | .closeConnection c => tripCloseConnectionEnd c
  | .freeConnection c => do
    tripFreeConnection c
    return []

/-- The router, the stack, and what was begun so far. -/
structure Config where
  router : Router
  todo : List Task
  log : List Task

/-- A call from outside, or a turn of the machine; `code` is what a callout that is
on top returns. -/
inductive Input
  | call (api : Api) (o : Oracle)
  | run (code : Errno) (o : Oracle)

namespace Config

/-- Whether the router may be called. -/
def waits (c : Config) : Bool := c.todo.head?.all Task.isCallout

/-- Run `m` above the stack `rest`; `begun` is what it is the beginning of.  A
callout begins when it is on top. -/
def go (c : Config) (rest begun : List Task) (o : Oracle) (m : TripM (List Task)) :
    Option Config :=
  match m.exec ⟨c.router, o, []⟩ with
  | (some ts, s) =>
    if ts.any Task.isWalk && rest.any Task.isWalk then none
    else some ⟨s.router, ts ++ rest, c.log ++ begun ++ ts.filter Task.isCallout⟩
  | (none, _) => none

/-- **One step**, unless the router may not be called or is stuck. -/
def step (c : Config) : Input → Option Config
  | .call api o => if c.waits then c.go c.todo [] o api.run else none
  | .run code o =>
    match c.todo with
    | [] => none
    | t :: rest => c.go rest (if t.isCallout then [] else [t]) o (t.run code)

/-- A router nothing is going on in. -/
def idle (r : Router) : Config := ⟨r, [], []⟩

/-- The steps of the machine as a relation. -/
def Step (c : Config) (i : Input) (c' : Config) : Prop := c.step i = some c'

end Config

end Libtrp
