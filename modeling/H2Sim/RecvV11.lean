import H2Sim.Bytes

/-! `h2_sess_recv_hdl_once_v1_1` and `h2_sess_recv_v1_1`: the incremental HTTP/1.1 parser
over the session's receive buffer `rdata`. -/
namespace H2Sim

/-- The application callbacks behind `h2_on_request_recv` and `h2_on_response_recv` (not in
this file), as the value they return for a completed stream. -/
structure Hooks where
  onRequest : Strm → Int
  onResponse : Strm → Int

/-- Modelled from the spec: `h2_cpy_body` (not in this file) copies `len` bytes from `rdata +
pos` into the message body; a negative length copies nothing. -/
def Msg.h2CpyBody (m : Msg) (b : RBuf) (pos : Nat) (len : Int) : Msg :=
  { m with body := b.read pos len.toNat }

/-- Modelled from the spec: `h2_strm_free` (not in this file) unlinks the stream from the
session's list; `strm_sending` is left as it is. -/
def Sess.h2StrmFree (s : Sess) (r : Nat) : Sess :=
  { s with strms := s.strms.filter fun st => st.ref ≠ r }

/-- `strm->rmsg` of the stream `r`. -/
def Sess.rmsgOf (s : Sess) (r : Nat) : Msg := ((s.strms.find? (·.ref = r)).map (·.rmsg)).getD .empty

def Sess.setRmsg (s : Sess) (r : Nat) (m : Msg) : Sess :=
  { s with strms := updStrm r (fun st => { st with rmsg := m }) s.strms }

/-- The stream `r` as the callbacks receive it. -/
def Sess.strmOf (s : Sess) (r : Nat) : Strm :=
  (s.strms.find? (·.ref = r)).getD ⟨r, 0, .empty, false, ⟨[], 0⟩⟩

/-- Drop trailing spaces and tabs while at least `k` bytes remain, as the loops `while (end
>= base + k && ...) end--` do; on the reversed string. -/
def stripRev (k : Nat) : List UInt8 → List UInt8
  | [] => []
  | c :: cs => if k ≤ cs.length + 1 ∧ isSpTab c = true then stripRev k cs else c :: cs

def stripEnd (k : Nat) (e : List UInt8) : List UInt8 := (stripRev k e.reverse).reverse

/-- The Request-Line (lines 497-522): it must end in `HTTP/1.1` with four bytes before it; the
method is the first run of non-blanks, the path what follows the blanks after it. -/
def parseRequestLine (ssl : Bool) (ln : List UInt8) (m : Msg) : Option Msg :=
  if 12 ≤ ln.length ∧ ln.drop (ln.length - 8) = bytes "HTTP/1.1" then
    let e := stripEnd 3 (ln.take (ln.length - 8))
    let meth := e.takeWhile fun c => !isSpTab c
    some { m with
      method := some meth
      scheme := some (bytes (if ssl then "https" else "http"))
      authority := some (bytes "http")
      path := some ((e.drop meth.length).dropWhile isSpTab) }
  else none

/-- The Status-Line (lines 524-540): three digits, the first in `1..5`, then the end of the
line or a blank. -/
def parseStatusLine (ln : List UInt8) (m : Msg) : Option Msg :=
  match ln with
  | d₀ :: d₁ :: d₂ :: rest =>
    if 49 ≤ d₀.toNat ∧ d₀.toNat ≤ 53 ∧ isDigit d₁ = true ∧ isDigit d₂ = true ∧
        rest.head?.all isSpTab = true then
      some { m with status := ((d₀.toNat - 48) * 100 + (d₁.toNat - 48) * 10 + (d₂.toNat - 48) : Nat) }
    else none
  | _ => none

/-- The header section's per-message state: `rmsg_header_line`, `rmsg_content_length` and the
message. -/
structure Hdr where
  line : Nat
  contentLength : Int
  msg : Msg

/-- A header line (lines 541-571): split at `:`, trim the value; `Host` sets the authority,
`Content-Length` the length by `atoi` (reading on into `mem`), others are kept. -/
def parseHeaderLine (isServer : Bool) (ln mem : List UInt8) (h : Hdr) : Option Hdr :=
  let name := ln.takeWhile (· ≠ 58)
  if name.length < ln.length then
    let v := (ln.drop (name.length + 1)).dropWhile isSpTab
    let value := stripEnd 1 v
    if name.length = 4 ∧ caseEq name (bytes "host") = true ∧ isServer = true then
      some { h with msg := { h.msg with authority := some value } }
    else if name.length = 14 ∧ caseEq name (bytes "content-length") = true then
      some { h with contentLength := atoi (v ++ mem) }
    else some { h with msg := { h.msg with hdrs := h.msg.hdrs ++ [(name, value)] } }
  else none

/-- One complete line of the header section; a failed line gives the function's return
code. -/
def parseLine (isServer ssl : Bool) (ln mem : List UInt8) (h : Hdr) : Except Int Hdr :=
  if h.line = 0 then
    if isServer then
      match parseRequestLine ssl ln h.msg with
      | some m => .ok { h with msg := m }
      | none => .error (-1)
    else
      match parseStatusLine ln h.msg with
      | some m => .ok { h with msg := m }
      | none => .error (-2)
  else
    match parseHeaderLine isServer ln mem h with
    | some h' => .ok h'
    | none => .error (-3)

/-- How the header loop stopped: out of complete lines, at the empty line, or on a line
that failed. -/
inductive HdrEnd where
  | more
  | done
  | error (code : Int)
  deriving DecidableEq, Repr

/-- The header loop (lines 476-578) over the unread bytes: `acc` is the line so far, reversed,
`beyond` the allocation past `rdata_size` (read by `atoi`), `used` is `rdata_used`. -/
def hdrScan (isServer ssl : Bool) (beyond : List UInt8) :
    List UInt8 → List UInt8 → Hdr → Nat → HdrEnd × Hdr × Nat
  | [], _, h, used => (.more, h, used)
  | c :: cs, acc, h, used =>
    if c = 10 then
      let ln := if acc.head? = some 13 then acc.tail.reverse else acc.reverse
      if ln = [] then (.done, h, used + acc.length + 1)
      else
        match parseLine isServer ssl ln (acc.reverse.drop ln.length ++ 10 :: (cs ++ beyond)) h with
        | .error e => (.error e, h, used)
        | .ok h' => hdrScan isServer ssl beyond cs [] { h' with line := h'.line + 1 } (used + acc.length + 1)
    else hdrScan isServer ssl beyond cs (c :: acc) h used

/-- Reset the per-message parse state for the stream `r`. -/
def Sess.startRmsg (s : Sess) (r : Nat) : Sess :=
  { s with strmRecving := some r, rmsgHeaderDone := false, rmsgHeaderLine := 0, rmsgContentLength := 0 }

/-- The stream selection (lines 451-473): keep the stream being received, or start one; a
server creates it, a client takes the oldest; `none` when a client has no stream (`-1`). -/
def Sess.recvStart (s : Sess) : Option (Sess × Nat) :=
  match s.strmRecving with
  | some r => some (s, r)
  | none =>
    if s.isServer then some ((s.h2StrmInit (cInt (s.reqCnt * 2 + 1)) []).startRmsg s.strmNext, s.strmNext)
    else
      match s.strms with
      | [] => none
      | st :: _ => some (s.startRmsg st.ref, st.ref)

def RBuf.none : RBuf := ⟨0, fun _ => 0⟩

/-- The body copy (lines 584-591): with a content length and enough unread bytes, copy the body
and advance `rdata_used` (a negative value reads as 0). -/
def Sess.recvCopy (s : Sess) (r : Nat) : Sess :=
  let cl := s.rmsgContentLength
  if cl ≠ 0 ∧ (s.rmsgOf r).body.length = 0 ∧ cl ≤ (s.rdataSize : Int) - s.rdataUsed then
    { s with rdataUsed := (s.rdataUsed + cl).toNat }.setRmsg r
      ((s.rmsgOf r).h2CpyBody (s.rdata.getD .none) s.rdataUsed cl)
  else s

/-- The completion (lines 593-611): the message is complete when its body has the content
length; the callback runs, and a client frees the stream. -/
def Sess.recvComplete (hooks : Hooks) (s : Sess) (r : Nat) : Int × Sess × List Strm :=
  if s.rmsgContentLength = (s.rmsgOf r).body.length then
    let st := s.strmOf r
    if s.isServer then
      let ret := hooks.onRequest st
      (if 0 ≤ ret then 1 else ret, { s with reqCnt := s.reqCnt + 1, strmRecving := none }, [st])
    else
      let ret := hooks.onResponse st
      (if 0 ≤ ret then 1 else ret,
        { s.h2StrmFree r with strmCloseCnt := s.strmCloseCnt + 1, strmRecving := none }, [st])
  else (0, s, [])

/-- What the header loop leaves in the session: `rdata_used`, the line count, the content
length, whether the empty line was seen, and the stream's message. -/
def Sess.afterScan (s : Sess) (r : Nat) (w : HdrEnd × Hdr × Nat) : Sess :=
  ({ s with
    rdataUsed := w.2.2, rmsgHeaderLine := w.2.1.line, rmsgContentLength := w.2.1.contentLength,
    rmsgHeaderDone := decide (w.1 = HdrEnd.done) }).setRmsg r w.2.1.msg

/-- `h2_sess_recv_hdl_once_v1_1`: 1 when a message completed, 0 when more bytes are needed,
negative on a parse error; also the streams handed to a callback. -/
def h2SessRecvHdlOnceV11 (hooks : Hooks) (s : Sess) : Int × Sess × List Strm :=
  match s.recvStart with
  | none => (-1, s, [])
  | some (s, r) =>
    if s.rmsgHeaderDone then (s.recvCopy r).recvComplete hooks r
    else
      let b := s.rdata.getD .none
      let w := hdrScan s.isServer s.ssl (b.read s.rdataSize (b.alloced - s.rdataSize))
        (b.read s.rdataUsed (s.rdataSize - s.rdataUsed)) []
        ⟨s.rmsgHeaderLine, s.rmsgContentLength, s.rmsgOf r⟩ s.rdataUsed
      match w.1 with
      | .error e => (e, s.afterScan r w, [])
      | .done => ((s.afterScan r w).recvCopy r).recvComplete hooks r
      | .more => (0, s.afterScan r w, [])

def rdataAllocDef : Nat := 16 * 1024

/-- The buffer half of `h2_sess_recv_v1_1` (lines 617-644): allocate, append, or compact and grow;
the tests of lines 625 and 630 sum `int`s; fresh memory holds `junk`. -/
def Sess.appendRdata (s : Sess) (junk : Nat → UInt8) (d : List UInt8) : Sess :=
  match s.rdata with
  | none =>
    let a := if d.length ≥ rdataAllocDef then d.length else rdataAllocDef
    { s with rdata := some ((⟨a, junk⟩ : RBuf).write 0 d), rdataSize := d.length, rdataUsed := 0 }
  | some b =>
    if (b.alloced : Int) ≥ cInt (s.rdataSize + d.length) then
      { s with rdata := some (b.write s.rdataSize d), rdataSize := s.rdataSize + d.length }
    else
      let n := s.rdataSize - s.rdataUsed
      let b := if (b.alloced : Int) < cInt (n + d.length) then b.grow (cInt (n + d.length)).toNat junk else b
      let b := if n ≠ 0 then b.shift s.rdataUsed n else b
      { s with
        rdata := some (b.write n d), rdataSize := n + d.length,
        rdataOffset := s.rdataOffset + s.rdataUsed, rdataUsed := 0 }

/-- The parse loop (lines 646-651); a round that goes on consumes bytes, so `fuel` past the unread
length is never used up. -/
def recvLoop (hooks : Hooks) : Nat → Sess → Int × Sess × List Strm
  | 0, s => (1, s, [])
  | fuel + 1, s =>
    let o := h2SessRecvHdlOnceV11 hooks s
    if o.1 = 1 ∧ ¬ (o.2.1.rdataUsed = o.2.1.rdataSize ∨ o.2.1.isTerminated = 1) then
      let v := recvLoop hooks fuel o.2.1
      (v.1, v.2.1, o.2.2 ++ v.2.2)
    else o

/-- Lines 658-667: once every byte is parsed, a grown buffer is released. -/
def Sess.releaseRdata (s : Sess) : Sess :=
  if s.rdataUsed = s.rdataSize ∧ rdataAllocDef < (s.rdata.getD .none).alloced then
    { s with
      rdataOffset := s.rdataOffset + s.rdataUsed, rdata := none, rdataSize := 0, rdataUsed := 0 }
  else s

/-- `h2_sess_recv_v1_1` on the chunk `d`; also the streams handed to a callback. -/
def h2SessRecvV11 (hooks : Hooks) (junk : Nat → UInt8) (s : Sess) (d : List UInt8) :
    Int × Sess × List Strm :=
  let s := s.appendRdata junk d
  let o := recvLoop hooks (s.rdataSize - s.rdataUsed + 1) s
  if o.1 < 0 then (-1, o.2.1, o.2.2) else (d.length, o.2.1.releaseRdata, o.2.2)

set_option maxRecDepth 20000 in
/-- `Content-Length: -1` passes the body check and `h2_cpy_body` moves `rdata_used` back a byte, in
the call that completes the headers and again in the next. -/
theorem h2SessRecvHdlOnceV11_used_decreases :
    let hooks : Hooks := ⟨fun _ => 0, fun _ => 0⟩
    let s₁ := (h2SessRecvV11 hooks (fun _ => 0) (Sess.init true false .v1_1)
      (bytes "GET / HTTP/1.1\r\nContent-Length: -1\r\n\r\n")).2.1
    let s₂ := s₁.appendRdata (fun _ => 0) (bytes "x")
    s₁.rdataSize = 38 ∧ s₁.rdataUsed = 37 ∧ s₁.rmsgContentLength = -1 ∧
      s₂.rdataUsed = 37 ∧ (h2SessRecvHdlOnceV11 hooks s₂).2.1.rdataUsed = 36 := by
  decide

set_option maxRecDepth 20000 in
/-- The client's Status-Line check wants three digits at the start of the line, so the
response `HTTP/1.1 200 OK` is a parse error: no callback runs and the call returns -1. -/
theorem h2SessRecvV11_status_line_rejected :
    let s : Sess := (Sess.init false false .v1_1).h2StrmInit 1 (bytes "GET / HTTP/1.1\r\n\r\n")
    let o := h2SessRecvV11 ⟨fun _ => 0, fun _ => 0⟩ (fun _ => 0) s
      (bytes "HTTP/1.1 200 OK\r\nContent-Length: 2\r\n\r\nOK")
    o.1 = -1 ∧ o.2.2 = [] := by
  decide

/-- Chunks fed in order through `h2_sess_recv_v1_1` until a `-1`: the failure flag, the session and
the streams handed to the callbacks. -/
def recvChunks (hooks : Hooks) (junk : Nat → Nat → UInt8) :
    Nat → Sess → List (List UInt8) → Bool × Sess × List Strm
  | _, s, [] => (false, s, [])
  | k, s, d :: ds =>
    let o := h2SessRecvV11 hooks (junk k) s d
    if o.1 < 0 then (true, o.2.1, o.2.2)
    else
      let v := recvChunks hooks junk (k + 1) o.2.1 ds
      (v.1, v.2.1, o.2.2 ++ v.2.2)

set_option maxRecDepth 20000 in
/-- An empty `Content-Length` value: `atoi` reads past the line, into the body byte `7` fed whole and
into fresh memory split, so the two feeds differ. -/
theorem recvChunks_content_length_overread :
    let hooks : Hooks := ⟨fun _ => 0, fun _ => 0⟩
    let s := Sess.init true false .v1_1
    let whole := recvChunks hooks (fun _ _ => 0) 0 s
      [bytes "GET / HTTP/1.1\r\nContent-Length:\r\n\r\n7x"]
    let split := recvChunks hooks (fun _ _ => 0) 0 s
      [bytes "GET / HTTP/1.1\r\nContent-Length:\r\n", bytes "\r\n7x"]
    whole.1 = false ∧ split.1 = false ∧ whole.2.2 = [] ∧ split.2.2.length = 1 := by
  decide

end H2Sim
