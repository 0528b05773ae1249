import H2Sim.Ctx

/-! One round of `h2_ctx_run`'s service loop, in both builds: the poll build fills a
`pollfd` array from the listener and session lists (freeing the sessions with no
interest), polls, and dispatches; the EPOLL build dispatches what `epoll_wait` returns.
The event bits are the system headers' constants, taken as arguments. -/
namespace H2Sim

/-- The event bits the loops test: `POLLIN`, `POLLOUT`, `POLLERR`, `POLLHUP`, `POLLNVAL`,
`POLLRDHUP` of `<poll.h>`, or the `EPOLL*` ones of `<sys/epoll.h>` (not in `h2_io.c`). -/
structure EvBits where
  inp : Nat
  out : Nat
  err : Nat
  hup : Nat
  nval : Nat
  rdHup : Nat
  deriving DecidableEq, Repr

/-- Linux's values of the `POLL*` bits. -/
def linuxPoll : EvBits := ⟨0x001, 0x004, 0x008, 0x010, 0x020, 0x2000⟩

/-- Linux's values of the `EPOLL*` bits; there is no `EPOLLNVAL`. -/
def linuxEpoll : EvBits := ⟨0x001, 0x004, 0x008, 0x010, 0, 0x2000⟩

/-- C's `a || b` on two integers: `1` when either is non-zero. -/
def cOr (a b : Nat) : Nat := if a ≠ 0 ∨ b ≠ 0 then 1 else 0

/-- What a `pollfd` entry or an epoll event stands for: a listener or a session. -/
inductive Obj where
  | svr (v : Nat)
  | sess (a : Nat)
  deriving DecidableEq, Repr

/-- `pfd[n]` with `pfd_obj[n]`. -/
structure PollEntry where
  fd : Nat
  events : Nat
  obj : Obj
  deriving DecidableEq, Repr

/-- What the loop does to a session or a listener, in order. -/
inductive Act where
  | recv (a : Nat)
  | send (a : Nat)
  | free (a : Nat)
  | accept (v : Nat)
  deriving DecidableEq, Repr

/-- What a round meets besides readiness: `h2_sess_recv`, `h2_sess_send`, and `accept()`'s answers. -/
structure TickEnv where
  recv : Sess → Int × Sess
  send : Sess → Int × Sess
  accept : Nat → Option (Nat × AcceptTry)

/-- `pfd_alloced` (or `ea_alloced`) after the resizing at the top of a round
(lines 1664-1667, 1755-1759). -/
def grow (alloced need : Int) : Int :=
  if alloced < need then (need + 16 + 1023) / 1024 * 1024 else alloced

/-- The `events` a session asks for (lines 1776-1790) as a bit mask. -/
def pollMask (bits : EvBits) (s : Sess) : Nat :=
  (if (pollEvents s).pollIn then bits.inp else 0) ||| (if (pollEvents s).pollOut then bits.out else 0)

/-- What `poll()` returns: a timeout, `EINTR`, another error, or the `revents` of each
entry. -/
inductive PollRes where
  | timeout
  | intr
  | error
  | ready (revents : List Nat)

/-- What `epoll_wait` returns: a timeout, `EINTR`, another error, or the events. -/
inductive EpollRes where
  | timeout
  | intr
  | error
  | ready (events : List (Obj × Nat))

/-- One round of the loop: the context after it, `pfd_alloced` (or `ea_alloced`), what was
done, and whether the loop goes on. -/
structure Round where
  ctx : Ctx
  alloced : Int
  acts : List Act
  more : Bool

namespace Ctx

variable (b : Build) (bits : EvBits) (env : TickEnv)

/-- The listener part of the fill (lines 1763-1770), along `next` from `v`; `fuel` past
the number of addresses handed out is never used up on a well-formed list. -/
def fillSvrs (c : Ctx) : Nat → Option Nat → List PollEntry
  | 0, _ => []
  | _ + 1, none => []
  | fuel + 1, some v =>
    let svr := (c.svr v).getD ⟨-1, false, false⟩
    (if 0 ≤ svr.acceptFd then [⟨svr.acceptFd.toNat, bits.inp, .svr v⟩] else []) ++
      fillSvrs c fuel (c.svrL.next v)

/-- The session part of the fill (lines 1771-1797): `sess_next` is read before a session
asking for nothing is freed with `CLOSE_BY_HTTP_END`. -/
def fillSess : Nat → Option Nat → Ctx × List PollEntry → Ctx × List PollEntry
  | 0, _, o => o
  | _ + 1, none, o => o
  | fuel + 1, some a, (c, es) =>
    let next := c.sessL.next a
    let s := c.sessOf a
    if pollMask bits s = 0 then
      fillSess fuel next (((c.updSess a fun s => { s with closeReason := .httpEnd }).sessFree b a), es)
    else fillSess fuel next (c, es ++ [⟨s.fd, pollMask bits s, .sess a⟩])

/-- Free a session after tagging why, as the dispatch does. -/
def freeWith (r : CloseReason) (a : Nat) (c : Ctx) : Ctx :=
  (c.updSess a fun s => { s with closeReason := r }).sessFree b a

/-- The accept branch of both dispatches (lines 1692-1705, 1820-1833). -/
def acceptOn (v : Nat) (c : Ctx) : Ctx × List Act :=
  match env.accept v with
  | none => (c, [.accept v])
  | some (fd, t) => ((c.h2SessInitServer b v fd t).1, [.accept v])

/-- A session's events in the poll build (lines 1834-1861). -/
def pollSess (rev a : Nat) (c : Ctx) : Ctx × List Act :=
  let r := if rev &&& bits.inp ≠ 0 then some (c.sessCall a env.recv) else none
  match r with
  | some (n, c') =>
    if n < 0 then (c'.sessFree b a, [.recv a, .free a]) else pollSendOn rev a c' [.recv a]
  | none => pollSendOn rev a c []
where
  /-- The rest after the receive: `revents & (POLLOUT || POLLIN)`, `POLLRDHUP`, and
  `POLLERR | POLLHUP | POLLNVAL`. -/
  pollSendOn (rev a : Nat) (c : Ctx) (acts : List Act) : Ctx × List Act :=
    let r := if rev &&& cOr bits.out bits.inp ≠ 0 then some (c.sessCall a env.send) else none
    match r with
    | some (n, c') =>
      if n < 0 then (c'.sessFree b a, acts ++ [.send a, .free a])
      else pollHupOn rev a c' (acts ++ [.send a])
    | none => pollHupOn rev a c acts
  /-- The hang-up and error tests. -/
  pollHupOn (rev a : Nat) (c : Ctx) (acts : List Act) : Ctx × List Act :=
    if rev &&& bits.rdHup ≠ 0 then (freeWith b .sockEof a c, acts ++ [.free a])
    else if rev &&& (bits.err ||| bits.hup ||| bits.nval) ≠ 0 then
      (freeWith b .sockErr a c, acts ++ [.free a])
    else (c, acts)

/-- The dispatch of the poll build (lines 1812-1862) over the entries with their `revents`,
`k` of them non-zero left to see. -/
def pollDispatch : List (PollEntry × Nat) → Nat → Ctx → Ctx × List Act
  | [], _, c => (c, [])
  | (e, rev) :: es, k, c =>
    if k = 0 then (c, [])
    else if rev = 0 then pollDispatch es k c
    else
      let o : Ctx × List Act := match e.obj with
        | .svr v => if rev &&& bits.inp ≠ 0 then acceptOn b env v c else (c, [])
        | .sess a => pollSess b bits env rev a c
      let r := pollDispatch es (k - 1) o.1
      (r.1, o.2 ++ r.2)

/-- The fill (lines 1761-1798): the context once the sessions asking for nothing are freed,
and the entries of `pfd` and `pfd_obj`. -/
def fill (c : Ctx) : Ctx × List PollEntry :=
  fillSess b bits c.fresh (c.sessL.next 0) (c, fillSvrs bits c c.fresh (c.svrL.next 0))

/-- One round of the poll build's `while (ctx->service_flag)` loop (lines 1753-1863). -/
def pollRound (pr : PollRes) (alloced : Int) (c : Ctx) : Round :=
  let alloced := grow alloced (c.sessNum + c.svrNum)
  let o := fill b bits c
  if o.2 = [] then ⟨o.1, alloced, [], false⟩
  else match pr with
    | .timeout => ⟨o.1, alloced, [], true⟩
    | .intr => ⟨o.1, alloced, [], true⟩
    | .error => ⟨o.1, alloced, [], false⟩
    | .ready revs =>
      let d := pollDispatch b bits env (o.2.zip (revs ++ List.replicate o.2.length 0))
        (revs.countP (· ≠ 0)) o.1
      ⟨d.1, alloced, d.2, true⟩

/-- A session's event in the EPOLL build (lines 1706-1735). -/
def epollSess (ev a : Nat) (c : Ctx) : Ctx × List Act :=
  let r := if ev &&& bits.inp ≠ 0 then some (c.sessCall a env.recv) else none
  match r with
  | some (n, c') =>
    if n < 0 then (c'.sessFree b a, [.recv a, .free a]) else epollSendOn ev a c' [.recv a]
  | none => epollSendOn ev a c []
where
  /-- `events & (EPOLLOUT || EPOLLIN)`: an HTTP/1.1 session already terminated is freed
  there without leaving the iteration. -/
  epollSendOn (ev a : Nat) (c : Ctx) (acts : List Act) : Ctx × List Act :=
    if ev &&& cOr bits.out bits.inp ≠ 0 then
      if (c.sessOf a).isTerminated = 1 ∧ (c.sessOf a).httpVer ≠ .v2 then
        epollHupOn ev a (freeWith b .httpEnd a c) (acts ++ [.free a])
      else
        let (n, c') := c.sessCall a env.send
        if n < 0 then (c'.sessFree b a, acts ++ [.send a, .free a])
        else epollHupOn ev a c' (acts ++ [.send a])
    else epollHupOn ev a c acts
  /-- `events & (EPOLLERR | EPOLLHUP | EPOLLRDHUP)`. -/
  epollHupOn (ev a : Nat) (c : Ctx) (acts : List Act) : Ctx × List Act :=
    if ev &&& (bits.err ||| bits.hup ||| bits.rdHup) ≠ 0 then
      (freeWith b .sockErr a c, acts ++ [.free a])
    else (c, acts)

/-- The dispatch of the EPOLL build (lines 1688-1736) over what `epoll_wait` returned. -/
def epollDispatch : List (Obj × Nat) → Ctx → Ctx × List Act
  | [], c => (c, [])
  | (o, ev) :: es, c =>
    let r : Ctx × List Act := match o with
      | .svr v => if ev &&& bits.inp ≠ 0 then acceptOn b env v c else (c, [])
      | .sess a => epollSess b bits env ev a c
    let d := epollDispatch es r.1
    (d.1, r.2 ++ d.2)

/-- One round of the EPOLL build's loop (lines 1662-1737); `memOk` is whether the `realloc`
of line 1667 succeeds. -/
def epollRound (memOk : Bool) (er : EpollRes) (alloced : Int) (c : Ctx) : Round :=
  let eaMax := c.sessNum + c.svrNum
  if alloced < eaMax ∧ memOk = false then ⟨c, grow alloced eaMax, [], false⟩
  else if eaMax ≤ 0 then ⟨c, grow alloced eaMax, [], false⟩
  else match er with
    | .timeout => ⟨c, grow alloced eaMax, [], true⟩
    | .intr => ⟨c, grow alloced eaMax, [], true⟩
    | .error => ⟨c, grow alloced eaMax, [], false⟩
    | .ready evs =>
      let d := epollDispatch b bits env evs c
      ⟨d.1, grow alloced eaMax, d.2, true⟩

/-- `revents & (POLLOUT || POLLIN)` is `revents & 1`, the readable bit: a connected client
with a send pending whose socket turns writable alone is not sent on, in either build. -/
theorem round_writable_only_no_send :
    let env : TickEnv := ⟨fun s => (0, s), fun s => (0, s), fun _ => none⟩
    let op := (Ctx.init .v1_1 3 fun _ => [⟨some 5, true, none, true, true⟩]).connectCall .poll .app
    let cp := (op.1.sessCall 1 fun s => (0, s.markSendPending .poll)).2
    let oe := (Ctx.init .v1_1 3 fun _ => [⟨some 5, true, none, true, true⟩]).connectCall .epoll .app
    let ce := (oe.1.sessCall 1 fun s => (0, s.markSendPending .epoll)).2
    (cp.sessOf 1).sendPending = true ∧
      (cp.pollRound .poll linuxPoll env (.ready [linuxPoll.out]) 1024).acts = [] ∧
      (ce.sessOf 1).sendPending = true ∧
      (ce.epollRound .epoll linuxEpoll env true (.ready [(.sess 1, linuxEpoll.out)]) 1024).acts = [] := by
  decide

/-- EPOLL build: a session terminated by its receive and reported readable with a hang-up is freed in
the send test and again in the error test. -/
theorem epollRound_frees_terminated_twice :
    let o : Ctx × Option Nat :=
      (Ctx.init .v1_1 3 fun _ => [⟨some 5, true, none, true, true⟩]).connectCall .epoll .app
    let env : TickEnv :=
      ⟨fun s => (0, (h2SessTerminate .epoll (fun _ => none) s false).2), fun s => (0, s), fun _ => none⟩
    let r := o.1.epollRound .epoll linuxEpoll env true
      (.ready [(.sess 1, linuxEpoll.inp ||| linuxEpoll.hup)]) 1024
    o.2 = some 1 ∧ r.acts = [.recv 1, .free 1, .free 1] ∧ r.ctx.freed = [1, 1] ∧
      r.ctx.closed = [5, 5] := by
  decide

/-- The same round from a context counting the session: the second free unlinks and uncounts it
again, leaving `sess_num` at `-1`. -/
theorem epollRound_sessNum_below_list :
    let o : Ctx × Option Nat :=
      (Ctx.init .v1_1 3 fun _ => [⟨some 5, true, none, true, true⟩]).connectCall .epoll .app
    let env : TickEnv :=
      ⟨fun s => (0, (h2SessTerminate .epoll (fun _ => none) s false).2), fun s => (0, s), fun _ => none⟩
    let r := o.1.epollRound .epoll linuxEpoll env true
      (.ready [(.sess 1, linuxEpoll.inp ||| linuxEpoll.hup)]) 1024
    o.1.sessL.DList 0 [1] ∧ o.1.sessNum = 1 ∧ r.ctx.sessL.DList 0 [] ∧ r.ctx.sessNum = -1 := by
  decide

end Ctx

end H2Sim
