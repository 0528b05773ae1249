import H2Sim.DList
import H2Sim.Peer
import H2Sim.Loop

/-! The context `h2_ctx`: its session, listener and peer lists, the constructors and frees
that maintain them, and the kernel state they touch (descriptors closed, the interest list
of the EPOLL build's `ctx->epoll_fd`). Objects live at addresses handed out in order; a
freed object's record stays where it was, so a call on it after its free reads what the C
code would read. What the system answers (sockets, handshakes, `epoll_ctl` room) comes from
arguments, and for the connects a session free may start from inside a callback, from the
sequence `conns` the context carries. -/
namespace H2Sim

/-- `SSL_new`, `SSL_connect` and ALPN as `h2_sess_client_start` sees them (lines 1122-1163):
the ALPN case carries whether `h2` was selected. -/
inductive TlsConn where
  | newFail
  | shutdown
  | handshakeFail
  | alpn (h2 : Bool)
  deriving DecidableEq, Repr

/-- What the system answers for one address `h2_connect` tries: `socket()`, `connect()`, the
handshake, the `EPOLL_CTL_ADD` and `h2_sess_send_settings`. -/
structure ConnTry where
  sock : Option Nat
  connected : Bool
  tls : Option TlsConn
  epollOk : Bool
  settingsOk : Bool
  deriving DecidableEq, Repr

/-- What `h2_sess_init_server` meets for an accepted descriptor: the `EPOLL_CTL_ADD`, the accept
callback, `SSL_new`, `SSL_accept`, ALPN and `h2_sess_send_settings`. -/
structure AcceptTry where
  epollOk : Bool
  cbOk : Bool
  cbSetsFreeCb : Bool
  sslNewOk : Bool
  sslAcceptOk : Bool
  alpnH2 : Bool
  settingsOk : Bool
  deriving DecidableEq, Repr

/-- What `h2_listen` meets for one address: `socket()`, `bind()` and `listen()`. -/
structure ListenTry where
  sock : Option Nat
  bindOk : Bool
  listenOk : Bool
  deriving DecidableEq, Repr

/-- A listener, `h2_svr`: its accepting socket (`-1` once closed), whether it has a server
`SSL_CTX` and an accept callback. -/
structure Svr where
  acceptFd : Int
  ssl : Bool
  hasAcceptCb : Bool
  deriving DecidableEq, Repr

/-- `h2_ctx` with the heap of its objects: list heads at address `0`, the frees in order, the epoll
interest list, the closed descriptors, and `conns k` for the `k`-th `h2_connect`. -/
structure Ctx where
  sessL : Links
  svrL : Links
  peerL : Links
  sessNum : Int
  svrNum : Int
  peerNum : Int
  sess : Nat → Option Sess
  svr : Nat → Option Svr
  peer : Nat → Option Peer
  freed : List Nat
  svrFreed : List Nat
  peerFreed : List Nat
  httpVer : HttpVer
  serviceFlag : Bool
  epollFd : Nat
  epoll : Nat → Option Bool
  closed : List Nat
  fresh : Nat
  conns : Nat → List ConnTry
  connCalls : Nat

namespace Ctx

variable (b : Build) (c : Ctx)

/-- `h2_ctx_init` (lines 1594-1609): empty lists, addresses from `1` on. -/
def init (httpVer : HttpVer) (epollFd : Nat) (conns : Nat → List ConnTry) : Ctx where
  sessL := ⟨fun _ => none, fun _ => 0⟩
  svrL := ⟨fun _ => none, fun _ => 0⟩
  peerL := ⟨fun _ => none, fun _ => 0⟩
  sessNum := 0
  svrNum := 0
  peerNum := 0
  sess := fun _ => none
  svr := fun _ => none
  peer := fun _ => none
  freed := []
  svrFreed := []
  peerFreed := []
  httpVer := httpVer
  serviceFlag := false
  epollFd := epollFd
  epoll := fun _ => none
  closed := []
  fresh := 1
  conns := conns
  connCalls := 0

/-- The session record at `a`. -/
def sessOf (a : Nat) : Sess := (c.sess a).getD (Sess.init false false .v1_1)

/-- The peer record at `p`. -/
def peerOf (p : Nat) : Peer := (c.peer p).getD (Peer.init 0 0)

def updSess (a : Nat) (f : Sess → Sess) : Ctx := { c with sess := Function.update c.sess a ((c.sess a).map f) }

def updPeer (p : Nat) (f : Peer → Peer) : Ctx :=
  { c with peer := Function.update c.peer p ((c.peer p).map f) }

/-- `close(fd)`: the kernel also drops the descriptor from the interest list. -/
def close (fd : Nat) : Ctx :=
  { c with closed := c.closed ++ [fd], epoll := Function.update c.epoll fd none }

/-- `epoll_ctl` against the context's epoll instance: a call on another descriptor fails and changes
nothing; `ok` is whether an `EPOLL_CTL_ADD` finds room. -/
def epollCtl (e : EpollCtl) (ok : Bool) : Int × Ctx :=
  if e.epfd ≠ c.epollFd then (-1, c)
  else match e.op with
    | .add =>
      if (c.epoll e.fd).isSome ∨ ok = false then (-1, c)
      else (0, { c with epoll := Function.update c.epoll e.fd (some e.out) })
    | .mod =>
      if (c.epoll e.fd).isSome then (0, { c with epoll := Function.update c.epoll e.fd (some e.out) })
      else (-1, c)
    | .del =>
      if (c.epoll e.fd).isSome then (0, { c with epoll := Function.update c.epoll e.fd none })
      else (-1, c)

/-- The `epoll_ctl` calls a session routine logged, made in order. -/
def applyEpoll (l : List EpollCtl) : Ctx := l.foldl (fun (c : Ctx) e => (c.epollCtl e true).2) c

/-- A session routine `f` (a send, a receive, a terminate) run on the session at `a`, with
the `epoll_ctl` calls it logs passed to the kernel. -/
def sessCall (a : Nat) (f : Sess → Int × Sess) : Int × Ctx :=
  let o := f { c.sessOf a with epollCtls := [] }
  (o.1, ({ c with sess := Function.update c.sess a (some { o.2 with epollCtls := [] }) }).applyEpoll
    o.2.epollCtls)

/-- Modelled from the spec (`h2_sess_free` is not in `h2_io.c`): unlink and uncount the session as
the file's own frees do, then run the session free callback `cb`. -/
def sessFreeWith (cb : Sess → Ctx → Ctx) (a : Nat) : Ctx :=
  let s := c.sessOf a
  let c := { c with sessL := c.sessL.unlink a, sessNum := c.sessNum - 1, freed := c.freed ++ [a] }
  (cb s c).close s.fd

/-- `h2_sess_free` of a session with no free callback. -/
def sessFreeBare (a : Nat) : Ctx := c.sessFreeWith (fun _ c => c) a

/-- `h2_sess_init_client` (lines 1044-1106): a new session at the head of the list, counted,
registered for `EPOLLIN` in the EPOLL build and freed if that fails. -/
def h2SessInitClient (ssl : Bool) (fd : Nat) (epollOk : Bool) : Ctx × Option Nat :=
  let a := c.fresh
  let c := { c with
    fresh := a + 1, sessL := c.sessL.insertHead 0 a, sessNum := c.sessNum + 1,
    sess := Function.update c.sess a (some { Sess.init false ssl c.httpVer with fd := fd }) }
  if b = .epoll then
    let r := c.epollCtl ⟨c.epollFd, .add, fd, false⟩ epollOk
    if r.1 < 0 then (r.2.sessFreeBare a, none) else (r.2, some a)
  else (c, some a)

/-- The version the handshake of `h2_sess_client_start` settles (lines 1122-1163): `none`
when the start fails there, `some none` when there is no handshake. -/
def tlsVer (tls : Option TlsConn) : Option (Option HttpVer) :=
  match tls with
  | none => some none
  | some .newFail => none
  | some .shutdown => none
  | some .handshakeFail => none
  | some (.alpn h2) =>
    if h2 then some (some .v2) else if c.httpVer = .v2 then none else some (some .v1_1)

/-- `h2_sess_client_start` (lines 1108-1200) on the connected socket `sock`. -/
def h2SessClientStart (t : ConnTry) (sock : Nat) : Ctx × Option Nat :=
  match c.tlsVer t.tls with
  | none => (c, none)
  | some ver =>
    match c.h2SessInitClient b t.tls.isSome sock t.epollOk with
    | (c, none) => (c, none)
    | (c, some a) =>
      let c := match ver with
        | some v => c.updSess a fun s => { s with httpVer := v }
        | none => c
      if (c.sessOf a).httpVer = .v2 ∧ t.settingsOk = false then (c.sessFreeBare a, none)
      else (c, some a)

/-- The address loop of `h2_connect` (lines 1253-1266): the first session started is kept with the
free callback `cb`; every other socket is closed. -/
def h2Connect (cb : FreeCb) : List ConnTry → Ctx → Ctx × Option Nat
  | [], c => (c, none)
  | t :: ts, c =>
    match t.sock with
    | none => h2Connect cb ts c
    | some sock =>
      match (if t.connected then c.h2SessClientStart b t sock else (c, none)) with
      | (c, some a) => (c.updSess a fun s => { s with freeCb := cb }, some a)
      | (c, none) => h2Connect cb ts (c.close sock)

/-- `h2_connect` (lines 1204-1285), answered by the next entry of `conns`. -/
def connectCall (cb : FreeCb) : Ctx × Option Nat :=
  h2Connect b cb (c.conns c.connCalls) { c with connCalls := c.connCalls + 1 }

/-- In the EPOLL build the `EPOLL_CTL_MOD` of `h2_sess_mark_send_pending` names the wrong epoll
descriptor: a connected, send-pending client stays registered for `EPOLLIN` only. -/
theorem markSendPending_not_registered :
    let o : Ctx × Option Nat :=
      (Ctx.init .v1_1 3 fun _ => [⟨some 5, true, none, true, true⟩]).connectCall .epoll .app
    let c := (o.1.sessCall 1 fun s => (0, s.markSendPending .epoll)).2
    o.2 = some 1 ∧ (c.sessOf 1).sendPending = true ∧ c.epoll (c.sessOf 1).fd = some false := by
  decide

/-- `peer_connect_sess` (lines 1951-1966) on the context. -/
def peerConnectSess (p i : Nat) : Ctx :=
  let o := c.connectCall b (.peer p)
  o.1.updPeer p fun pr => pr.connectSess i o.2

/-- `peer_sess_free_cb` (lines 1916-1949) for the session `a` with record `s`: the peer's
part, then the reconnect. -/
def peerSessFreeCb (p a : Nat) (s : Sess) : Ctx :=
  match (c.peerOf p).sessFreed a s c.serviceFlag with
  | (pr, none) => c.updPeer p fun _ => pr
  | (pr, some i) => (c.updPeer p fun _ => pr).peerConnectSess b p i

/-- The session free callback `sess->sess_free_cb(sess, sess->user_data)`; an application's
callback does not touch the context. -/
def freeCbCall (a : Nat) (s : Sess) : Ctx :=
  match s.freeCb with
  | .none => c
  | .app => c
  | .peer p => c.peerSessFreeCb b p a s

/-- `h2_sess_free(sess)`. -/
def sessFree (a : Nat) : Ctx := c.sessFreeWith (fun s c => c.freeCbCall b a s) a

/-- `h2_svr_free` (lines 1550-1577): the callback is the application's. -/
def h2SvrFree (v : Nat) : Ctx :=
  let svr := (c.svr v).getD ⟨-1, false, false⟩
  let c := { c with svrL := c.svrL.unlink v, svrNum := c.svrNum - 1, svrFreed := c.svrFreed ++ [v] }
  if 0 ≤ svr.acceptFd then
    let c := if b = .epoll then (c.epollCtl ⟨c.epollFd, .del, svr.acceptFd.toNat, false⟩ true).2 else c
    { c.close svr.acceptFd.toNat with
      svr := Function.update c.svr v (some { svr with acceptFd := -1 }) }
  else c

/-- The end of `h2_sess_init_server`: `h2_sess_server_tls_start` (lines 1308-1338) or
`h2_sess_server_tcp_start` (lines 1290-1306) on the session `a`. -/
def serverStart (svr : Svr) (t : AcceptTry) (a : Nat) : Ctx × Option Nat :=
  if svr.ssl then
    if t.sslNewOk = false then (c.sessFree b a, none)
    else
      let c := c.updSess a fun s => { s with ssl := true }
      if t.sslAcceptOk = false then (c.sessFree b a, none)
      else if t.alpnH2 then
        let c := c.updSess a fun s => { s with httpVer := .v2 }
        if t.settingsOk then (c, some a) else (c.sessFree b a, none)
      else if (c.sessOf a).httpVer = .v2 then (c.sessFree b a, none)
      else (c.updSess a fun s => { s with httpVer := .v1_1 }, some a)
  else if (c.sessOf a).httpVer = .v2 ∧ t.settingsOk = false then (c.sessFree b a, none)
  else (c, some a)

/-- `h2_sess_init_server` (lines 1341-1447) for the descriptor `fd` accepted on the
listener `v`. -/
def h2SessInitServer (v fd : Nat) (t : AcceptTry) : Ctx × Option Nat :=
  let a := c.fresh
  let svr := (c.svr v).getD ⟨-1, false, false⟩
  let c := { c with
    fresh := a + 1, sessL := c.sessL.insertHead 0 a, sessNum := c.sessNum + 1,
    sess := Function.update c.sess a (some { Sess.init true false c.httpVer with fd := fd }) }
  let r : Int × Ctx := if b = .epoll then c.epollCtl ⟨c.epollFd, .add, fd, false⟩ t.epollOk else (0, c)
  if r.1 < 0 then (r.2.h2SvrFree b v, none)
  else
    let c := r.2
    if svr.hasAcceptCb ∧ t.cbOk = false then (c.sessFree b a, none)
    else
      let c := if svr.hasAcceptCb ∧ t.cbSetsFreeCb then c.updSess a fun s => { s with freeCb := .app } else c
      c.serverStart b svr t a

/-- The address loop of `h2_listen` (lines 1486-1503): the first socket that binds and
listens is kept, the others are closed. -/
def listenLoop : List ListenTry → Ctx → Ctx × Option Nat
  | [], c => (c, none)
  | t :: ts, c =>
    match t.sock with
    | none => listenLoop ts c
    | some s => if t.bindOk ∧ t.listenOk then (c, some s) else listenLoop ts (c.close s)

/-- `h2_listen` (lines 1449-1548) once the authority is resolved. -/
def h2Listen (ssl hasAcceptCb : Bool) (tries : List ListenTry) (epollOk : Bool) : Ctx × Option Nat :=
  match listenLoop tries c with
  | (c, none) => (c, none)
  | (c, some sock) =>
    let v := c.fresh
    let c := { c with
      fresh := v + 1, svrL := c.svrL.insertHead 0 v, svrNum := c.svrNum + 1,
      svr := Function.update c.svr v (some ⟨sock, ssl, hasAcceptCb⟩) }
    if b = .epoll then
      let r := c.epollCtl ⟨c.epollFd, .add, sock, false⟩ epollOk
      if r.1 < 0 then (r.2.h2SvrFree b v, none) else (r.2, some v)
    else (c, some v)

/-- Two failed constructions: an accepted descriptor whose `EPOLL_CTL_ADD` fails frees the listener
and leaks the session; a client whose SETTINGS fails has its socket closed twice. -/
theorem sess_init_failure_leaks :
    let l : Ctx × Option Nat :=
      (Ctx.init .v1_1 3 fun _ => []).h2Listen .epoll false false [⟨some 4, true, true⟩] true
    let s := l.1.h2SessInitServer .epoll 1 7 ⟨false, true, false, true, true, true, true⟩
    let k := (Ctx.init .v2 3 fun _ => [⟨some 5, true, none, true, false⟩]).connectCall .poll .app
    l.2 = some 1 ∧ s.2 = none ∧ s.1.svrFreed = [1] ∧ s.1.svrNum = 0 ∧ s.1.svrL.DList 0 [] ∧
      s.1.sessNum = 1 ∧ s.1.sessL.DList 0 [2] ∧ s.1.closed = [4] ∧
      k.2 = none ∧ k.1.closed = [5, 5] := by
  decide

/-- `h2_peer_free` (lines 2039-2085): each slot's session is freed, which runs
`peer_sess_free_cb` and may reconnect the slot, and then the slot is cleared. -/
def h2PeerFree (p : Nat) : Ctx :=
  let c := (List.range (c.peerOf p).sessNum).foldl (fun (c : Ctx) i =>
    match (c.peerOf p).sess.getD i none with
    | none => c
    | some a => (c.sessFree b a).updPeer p fun pr => { pr with sess := pr.sess.set i none }) c
  { c with peerL := c.peerL.unlink p, peerNum := c.peerNum - 1, peerFreed := c.peerFreed ++ [p] }

/-- `h2_peer_connect` (lines 1969-2037). -/
def h2PeerConnect (sessNum : Nat) (reqThrForReconn : Int) : Ctx × Option Nat :=
  let p := c.fresh
  let c := { c with
    fresh := p + 1, peerL := c.peerL.insertHead 0 p, peerNum := c.peerNum + 1,
    peer := Function.update c.peer p (some (Peer.init sessNum reqThrForReconn)) }
  let c := (List.range sessNum).foldl (fun (c : Ctx) i => c.peerConnectSess b p i) c
  if (c.peerOf p).actSessNum ≤ 0 then (c.h2PeerFree b p, none) else (c, some p)

/-- `h2_peer_free` of a running peer: the slot's free reconnects it, the slot is cleared, and the
new session stays listed with the freed peer as its callback's data. -/
theorem h2PeerFree_leaves_reconnected_session :
    let c : Ctx := { Ctx.init .v1_1 3 (fun k => [⟨some (5 + k), true, none, true, true⟩]) with
      serviceFlag := true }
    let o := c.h2PeerConnect .poll 1 0
    let c' := o.1.h2PeerFree .poll 1
    o.2 = some 1 ∧ c'.peerFreed = [1] ∧ c'.sessL.DList 0 [3] ∧ (c'.sessOf 3).freeCb = .peer 1 ∧
      c'.freed = [2] := by
  decide

/-- `h2_peer_send_request` (lines 2088-2138): the round-robin scan, `h2_sess_terminate(sess, 1)` on
each session rotated out, then `send` on the one chosen; `-1` without one. -/
def h2PeerSendRequest (ngTerm : Codec → Option Codec) (send : Sess → Int × Sess) (p : Nat) :
    Ctx × Int :=
  match (c.peerOf p).sendRequest fun a => (c.sessOf a).reqCnt with
  | none => (c, -1)
  | some o =>
    let c := o.terminated.foldl (fun (c : Ctx) a =>
      (c.sessCall a fun s => h2SessTerminate b ngTerm s true).2) (c.updPeer p fun _ => o.peer)
    match o.sess with
    | none => (c, -1)
    | some a => let r := c.sessCall a send; (r.2, r.1)

/-- `h2_peer_terminate` (lines 2141-2158): the peer's part, then `h2_sess_terminate` on each
slot in order (a NULL slot returns at once). -/
def h2PeerTerminate (ngTerm : Codec → Option Codec) (p : Nat) (waitRsp : Bool) : Ctx × Int :=
  let o := (c.peerOf p).terminate waitRsp
  let c := c.updPeer p fun _ => o.2.1
  (o.2.2.foldl (fun (c : Ctx) s => match s with
    | none => c
    | some a => (c.sessCall a fun s => h2SessTerminate b ngTerm s waitRsp).2) c, o.1)

/-- `while (ctx->svr_list_head.next) h2_svr_free(ctx->svr_list_head.next);` of
`h2_ctx_free`, run at most `fuel` times. -/
def freeSvrs : Nat → Ctx → Ctx
  | 0, c => c
  | fuel + 1, c =>
    match c.svrL.next 0 with
    | none => c
    | some v => freeSvrs fuel (c.h2SvrFree b v)

/-- The loop of `h2_ctx_free` over the peer list. -/
def freePeers : Nat → Ctx → Ctx
  | 0, c => c
  | fuel + 1, c =>
    match c.peerL.next 0 with
    | none => c
    | some p => freePeers fuel (c.h2PeerFree b p)

/-- The loop of `h2_ctx_free` over the session list. -/
def freeSessions : Nat → Ctx → Ctx
  | 0, c => c
  | fuel + 1, c =>
    match c.sessL.next 0 with
    | none => c
    | some a => freeSessions fuel (c.sessFree b a)

/-- `h2_ctx_free` (lines 1610-1633): clear the service flag, free every listener, peer and session
from the head of its list, and in the EPOLL build close the epoll descriptor. -/
def h2CtxFree : Ctx :=
  let c := { c with serviceFlag := false }
  let c := freeSvrs b c.fresh c
  let c := freePeers b c.fresh c
  let c := freeSessions b c.fresh c
  if b = .epoll then c.close c.epollFd else c

end Ctx

end H2Sim
