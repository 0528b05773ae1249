import Mathlib.Data.List.Basic
import Mathlib.Algebra.Group.Int

/-! Data model of `h2_io.c`: sessions, streams, buffers, and what the transport and the
HTTP/2 codec answer. Byte strings are `List UInt8`; the C `int` counters and sizes are `Nat`,
the `int` the code holds for one being `cInt` of it. -/
namespace H2Sim

/-- The value a C `int` holds for `v`: its low 32 bits, as two's complement. -/
def cInt (v : Int) : Int := v.bmod (2 ^ 32)

theorem cInt_of_lt {v : Int} (h₀ : 0 ≤ v) (h : v < 2 ^ 31) : cInt v = v := by
  have hm : v % ((2 ^ 32 : Nat) : Int) = v := Int.emod_eq_of_lt h₀ (by omega)
  rw [cInt, Int.bmod_pos _ _ (by rw [hm]; omega), hm]

theorem cInt_of_ge {v : Int} (h₀ : 2 ^ 31 ≤ v) (h : v < 2 ^ 32) : cInt v = v - 2 ^ 32 := by
  have hm : v % ((2 ^ 32 : Nat) : Int) = v := Int.emod_eq_of_lt (by omega) (by omega)
  rw [cInt, Int.bmod_neg _ _ (by rw [hm]; omega), hm]
  rfl

/-- The two builds of the file: `EPOLL_MODE`, or the default `poll()` loop. -/
inductive Build where
  | poll
  | epoll
  deriving DecidableEq, Repr

/-- `H2_HTTP_V1_1`, `H2_HTTP_V2` and `H2_HTTP_V2_TRY`. -/
inductive HttpVer where
  | v1_1
  | v2
  | v2Try
  deriving DecidableEq, Repr

/-- The `CLOSE_BY_*` tags stored in `sess->close_reason`; `none` is calloc's zero. -/
inductive CloseReason where
  | none
  | sockErr
  | sockEof
  | sslErr
  | nghttp2Err
  | nghttp2End
  | httpErr
  | httpEnd
  deriving DecidableEq, Repr

/-- The memory a pointer points into. -/
inductive Base where
  | null
  | mergeData
  | codecSpan (n : Nat)
  | strmBody (ref : Nat)
  deriving DecidableEq, Repr

structure Ptr where
  base : Base
  off : Nat
  deriving DecidableEq, Repr

def Ptr.null : Ptr := ⟨.null, 0⟩

/-- Pointer arithmetic `p + k`. -/
def Ptr.add (p : Ptr) (k : Nat) : Ptr := { p with off := p.off + k }

/-- `h2_wr_buf`. The tail span keeps its bytes beside the borrowed pointer
`mem_send_data`: `memSendBytes` is `mem_send_data[0, mem_send_size)`. -/
structure WrBuf where
  mergeData : List UInt8
  memSendData : Ptr
  memSendBytes : List UInt8
  deriving DecidableEq, Repr

def WrBuf.empty : WrBuf := ⟨[], .null, []⟩

@[simp] def WrBuf.mergeSize (wb : WrBuf) : Nat := wb.mergeData.length

@[simp] def WrBuf.memSendSize (wb : WrBuf) : Nat := wb.memSendBytes.length

inductive Errno where
  | eagain
  | ewouldblock
  | eintr
  | other
  deriving DecidableEq, Repr

/-- `SSL_get_error()` of a failed `SSL_write()` or `SSL_read()`. -/
inductive SslErr where
  | wantWrite
  | wantRead
  | other
  deriving DecidableEq, Repr

/-- What the code reads after one `send()` or `SSL_write()`: the return value, `errno`
(TCP) and `SSL_get_error()` (TLS). -/
structure WrRet where
  ret : Int
  errno : Errno
  sslErr : SslErr
  deriving DecidableEq, Repr

/-- A write answer the transport can give for `len` bytes: TCP accepts at most `len`. A
TLS write that returns a positive value has taken all `len` bytes. -/
def WrRet.Valid (tls : Bool) (len : Nat) (w : WrRet) : Prop :=
  tls = false → 0 < w.ret → w.ret ≤ len

/-- The transport's answers during one send call: to the write of the merge buffer and to
the write of the tail span, as a function of the length written. -/
structure Net where
  merge : Nat → WrRet
  tail : Nat → WrRet

def Net.Valid (tls : Bool) (net : Net) : Prop :=
  ∀ n, 0 < n → (net.merge n).Valid tls n ∧ (net.tail n).Valid tls n

/-- Every answer is valid on a TLS session. -/
theorem Net.valid_tls (net : Net) : net.Valid true :=
  fun _ _ => ⟨fun h => Bool.noConfusion h, fun h => Bool.noConfusion h⟩

/-- One call of `send()` or `SSL_write()`: pointer, length and answer. -/
structure WriteCall where
  ptr : Ptr
  len : Nat
  res : WrRet
  deriving DecidableEq, Repr

/-- The transport as the model observes it: every write call in order, and the bytes it
has accepted. -/
structure Link where
  calls : List WriteCall
  wire : List UInt8
  deriving DecidableEq, Repr

/-- A span returned by `nghttp2_session_mem_send()`; a zero return means nothing pending,
so a returned span is never empty. -/
structure Span where
  ptr : Ptr
  data : List UInt8
  ne : data ≠ []

/-- One return of `nghttp2_session_mem_send()`: a span or a negative error. -/
inductive MemSend where
  | span (s : Span)
  | error

/-- The HTTP/2 codec `sess->ng_sess` as a black box: what `mem_send` returns next, the bytes
handed out so far, and its `want_read` / `want_write` answers. -/
structure Codec where
  pending : List MemSend
  handedOut : List UInt8
  wantRead : Bool
  wantWrite : Bool

def Codec.idle : Codec := ⟨[], [], true, false⟩

/-- `h2_msg`: pseudo-headers (`none` is an unset field), header list and body. -/
structure Msg where
  method : Option (List UInt8)
  scheme : Option (List UInt8)
  authority : Option (List UInt8)
  path : Option (List UInt8)
  status : Int
  hdrs : List (List UInt8 × List UInt8)
  body : List UInt8
  deriving DecidableEq, Repr

def Msg.empty : Msg := ⟨none, none, none, none, 0, [], []⟩

/-- `h2_read_buf` of a stream's send body: `data[0, data_size)` and `data_used`. -/
structure ReadBuf where
  data : List UInt8
  dataUsed : Nat
  deriving DecidableEq, Repr

/-- The receive buffer `rdata`: `rdata_alloced` bytes, read through `byte`. A byte no
write has reached holds whatever the allocator left there. -/
structure RBuf where
  alloced : Nat
  byte : Nat → UInt8

/-- `rdata[pos, pos + n)`. -/
def RBuf.read (b : RBuf) (pos n : Nat) : List UInt8 := (List.range' pos n).map b.byte

/-- `memcpy(rdata + pos, d, len)`. -/
def RBuf.write (b : RBuf) (pos : Nat) (d : List UInt8) : RBuf :=
  { b with byte := fun i => if pos ≤ i ∧ i < pos + d.length then d.getD (i - pos) 0 else b.byte i }

/-- `memmove(rdata, rdata + used, n)`. -/
def RBuf.shift (b : RBuf) (used n : Nat) : RBuf :=
  { b with byte := fun i => if i < n then b.byte (i + used) else b.byte i }

/-- `realloc(rdata, n)` to a larger size; the new bytes are `junk`'s. -/
def RBuf.grow (b : RBuf) (n : Nat) (junk : Nat → UInt8) : RBuf :=
  ⟨n, fun i => if i < b.alloced then b.byte i else junk i⟩

/-- `EPOLL_CTL_ADD`, `EPOLL_CTL_MOD` and `EPOLL_CTL_DEL`. -/
inductive EpollOp where
  | add
  | mod
  | del
  deriving DecidableEq, Repr

/-- One call `epoll_ctl(epfd, op, fd, &e)`. Every call of the file asks for `EPOLLIN`; `out`
says whether `e.events` also holds `EPOLLOUT`. -/
structure EpollCtl where
  epfd : Nat
  op : EpollOp
  fd : Nat
  out : Bool
  deriving DecidableEq, Repr

/-- `sess->sess_free_cb` with `sess->user_data`: none, `peer_sess_free_cb` with the peer at
address `p`, or an application callback. -/
inductive FreeCb where
  | none
  | peer (p : Nat)
  | app
  deriving DecidableEq, Repr

/-- `h2_strm`, identified by `ref`, the address it was allocated at. -/
structure Strm where
  ref : Nat
  streamId : Int
  rmsg : Msg
  responseSet : Bool
  sendBodyRb : ReadBuf
  deriving DecidableEq, Repr

/-- The fields of `h2_sess` the modelled routines use: `strm_sending` and `strm_recving` hold stream
refs, `rdata` is `none` for NULL, and an `int` counter's C value is `cInt` of its field. -/
structure Sess where
  isServer : Bool
  ssl : Bool
  httpVer : HttpVer
  isTerminated : Nat
  fd : Nat
  sendPending : Bool
  epollCtls : List EpollCtl
  closeReason : CloseReason
  reqCnt : Nat
  rspCnt : Nat
  rspRstCnt : Nat
  strmCloseCnt : Nat
  freeCb : FreeCb
  wrBuf : WrBuf
  sendDataRemain : Int
  ngSess : Codec
  strms : List Strm
  strmSending : Option Nat
  strmRecving : Option Nat
  strmNext : Nat
  rmsgHeaderDone : Bool
  rmsgHeaderLine : Nat
  rmsgContentLength : Int
  rdata : Option RBuf
  rdataSize : Nat
  rdataUsed : Nat
  rdataOffset : Nat

/-- A session as `calloc` leaves it, before any I/O. -/
def Sess.init (isServer ssl : Bool) (httpVer : HttpVer) : Sess where
  isServer := isServer
  ssl := ssl
  httpVer := httpVer
  isTerminated := 0
  fd := 0
  sendPending := false
  epollCtls := []
  closeReason := .none
  reqCnt := 0
  rspCnt := 0
  rspRstCnt := 0
  strmCloseCnt := 0
  freeCb := .none
  wrBuf := .empty
  sendDataRemain := 0
  ngSess := .idle
  strms := []
  strmSending := none
  strmRecving := none
  strmNext := 0
  rmsgHeaderDone := false
  rmsgHeaderLine := 0
  rmsgContentLength := 0
  rdata := none
  rdataSize := 0
  rdataUsed := 0
  rdataOffset := 0

/-- Apply `f` to the stream `r`. -/
def updStrm (r : Nat) (f : Strm → Strm) (L : List Strm) : List Strm :=
  L.map fun st => if st.ref = r then f st else st

/-- Modelled from the spec: `h2_strm_init` (not in this file) links a new stream at the tail of
the list, with `body` as its send body. -/
def Sess.h2StrmInit (s : Sess) (streamId : Int) (body : List UInt8) : Sess :=
  { s with
    strms := s.strms ++ [⟨s.strmNext, streamId, .empty, false, ⟨body, 0⟩⟩]
    strmNext := s.strmNext + 1 }

/-- The EPOLL re-registration of lines 104-107 and 116-119, `epoll_ctl(sess->fd, EPOLL_CTL_MOD,
sess->fd, &e)`, whose first argument is the session's own socket. -/
def Sess.epollMod (b : Build) (out : Bool) (s : Sess) : List EpollCtl :=
  if b = .epoll then s.epollCtls ++ [⟨s.fd, .mod, s.fd, out⟩] else s.epollCtls

/-- `h2_sess_mark_send_pending`. -/
def Sess.markSendPending (b : Build) (s : Sess) : Sess :=
  if s.sendPending then s
  else { s with sendPending := true, epollCtls := s.epollMod b true }

/-- `h2_sess_clear_send_pending`. -/
def Sess.clearSendPending (b : Build) (s : Sess) : Sess :=
  if s.sendPending then { s with sendPending := false, epollCtls := s.epollMod b false }
  else s

@[simp] theorem Sess.markSendPending_sendPending (b : Build) (s : Sess) :
    (s.markSendPending b).sendPending = true := by
  unfold markSendPending; split <;> simp_all

@[simp] theorem Sess.markSendPending_wrBuf (b : Build) (s : Sess) :
    (s.markSendPending b).wrBuf = s.wrBuf := by
  unfold markSendPending; split <;> rfl

@[simp] theorem Sess.clearSendPending_sendPending (b : Build) (s : Sess) :
    (s.clearSendPending b).sendPending = false := by
  unfold clearSendPending; split <;> simp_all

@[simp] theorem Sess.markSendPending_ngSess (b : Build) (s : Sess) :
    (s.markSendPending b).ngSess = s.ngSess := by
  unfold markSendPending; split <;> rfl

@[simp] theorem Sess.clearSendPending_ngSess (b : Build) (s : Sess) :
    (s.clearSendPending b).ngSess = s.ngSess := by
  unfold clearSendPending; split <;> rfl

@[simp] theorem Sess.clearSendPending_ssl (b : Build) (s : Sess) :
    (s.clearSendPending b).ssl = s.ssl := by
  unfold clearSendPending; split <;> rfl

@[simp] theorem Sess.clearSendPending_wrBuf (b : Build) (s : Sess) :
    (s.clearSendPending b).wrBuf = s.wrBuf := by
  unfold clearSendPending; split <;> rfl

end H2Sim
